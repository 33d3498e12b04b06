import Mathlib.Order.Monotone.Basic
import PathTemplate.Proofs.Numbering
import PathTemplate.Proofs.Reading

/-!
# Boundaries: where the cursor may stand and the text is cut

The cursor goes byte by byte, so it comes to stand inside characters.  A text can only be cut
between characters.  `Span.cut?` is the cut that stops where there is nothing to cut, because an end
of the span is inside a character, or outside the text, or before the other end; `Segment.scan?`
reads a template with it.

What a scan keeps is `Cursor.Sound`: the literal text in hand begins at a boundary, not behind the
cursor, and all recorded pieces can be cut.  Nothing is said of the cursor itself but that it is not
beyond the end.  That is enough, for the cursor is only made the end of a piece when it stands at a
brace, and then it is at a boundary (`isValid_of_at?`).

> `scan_at_boundaries`: the scan of any text keeps this, goes strictly forward and comes to the end;
> all cuts succeed; and the segments are those of the scan by characters.
-/

namespace PathTemplate

/-! ## Boundaries of a text -/

theorem toByteArray_eq_utf8Encode (text : String) : text.toByteArray = text.toList.utf8Encode := by
  rw [← String.toByteArray_ofList, String.ofList_toList]

theorem utf8ByteSize_eq_width (text : String) : text.utf8ByteSize = width text.toList := by
  rw [← utf8ByteSize_ofList, String.ofList_toList]

/-- A boundary splits the characters of a text in two. -/
theorem isValid_iff_exists_split {text : String} {i : Nat} :
    String.Pos.Raw.IsValid text ⟨i⟩ ↔
      ∃ front back, text.toList = front ++ back ∧ i = width front := by
  rw [String.Pos.Raw.isValid_iff_exists_append]
  refine ⟨?_, ?_⟩
  · intro ⟨front, back, hsplit, hpos⟩
    refine ⟨front.toList, back.toList, by rw [hsplit, String.toList_append], ?_⟩
    rw [← utf8ByteSize_eq_width]
    exact congrArg String.Pos.Raw.byteIdx hpos
  · intro ⟨front, back, hsplit, hpos⟩
    refine ⟨String.ofList front, String.ofList back, ?_, ?_⟩
    · rw [← String.ofList_append, ← hsplit, String.ofList_toList]
    · rw [hpos, ← utf8ByteSize_ofList]
      rfl

/-- Inside the first character there is no boundary. -/
theorem not_isValid_of_lt {text : String} {first : Char} {rest : List Char} {i : Nat}
    (htext : text.toList = first :: rest) (hpos : 0 < i) (hlt : i < first.utf8Size) :
    ¬ String.Pos.Raw.IsValid text ⟨i⟩ := by
  intro hvalid
  obtain ⟨front, back, hsplit, hi⟩ := isValid_iff_exists_split.mp hvalid
  cases front with
  | nil => exact Nat.ne_of_gt hpos hi
  | cons c front =>
    rw [htext, List.cons_append, List.cons.injEq] at hsplit
    rw [width_cons, ← hsplit.1] at hi
    omega

namespace Brace

/-- Both braces are characters of one byte. -/
theorem utf8Size_of_ofChar? {c : Char} {brace : Brace} (h : ofChar? c = some brace) :
    c.utf8Size = 1 := by
  unfold ofChar? at h
  split at h
  · next hopening => rw [hopening, utf8Size_opening]
  · split at h
    · next hclosing => rw [hclosing, utf8Size_closing]
    · exact absurd h (by simp)

/-- What stands behind the first character of a text does not depend on that character. -/
theorem at?_cons_of_le {c : Char} {chars : List Char} {i : Nat} (h : c.utf8Size ≤ i) :
    at? (c :: chars).utf8Encode i = at? chars.utf8Encode (i - c.utf8Size) := by
  unfold at?
  rw [getElem?_utf8Encode, getElem?_utf8Encode, List.flatMap_cons,
    List.getElem?_append_right (by rw [String.length_utf8EncodeChar]; exact h),
    String.length_utf8EncodeChar]

/-- A brace among the bytes is a character, and stands where the characters before it end. -/
theorem exists_split_of_at? {chars : List Char} {i : Nat} {brace : Brace}
    (h : at? chars.utf8Encode i = some brace) :
    ∃ front c back, chars = front ++ c :: back ∧ i = width front ∧ ofChar? c = some brace := by
  induction chars generalizing i with
  | nil =>
    have hempty : at? ([] : List Char).utf8Encode i = none :=
      at?_of_size_le (by rw [size_utf8Encode]; exact Nat.zero_le i)
    rw [hempty] at h
    exact absurd h (by simp)
  | cons c chars ih =>
    by_cases hi : i < c.utf8Size
    · -- a byte of the first character: that character is the brace and has no other byte
      obtain ⟨d, hd, hbrace⟩ := exists_ofChar?_of_at? (Nat.zero_le i)
        (show i < width ([] ++ [c]) by simpa using hi) h
      rw [List.mem_singleton] at hd
      subst hd
      have hsize := utf8Size_of_ofChar? hbrace
      exact ⟨[], d, chars, rfl, by rw [width_nil]; omega, hbrace⟩
    · rw [at?_cons_of_le (Nat.not_lt.mp hi)] at h
      obtain ⟨front, d, back, hsplit, hpos, hbrace⟩ := ih h
      exact ⟨c :: front, d, back, by rw [hsplit]; rfl, by rw [width_cons]; omega, hbrace⟩

/-- Before and behind a brace there is a boundary. -/
theorem isValid_of_at? {text : String} {i : Nat} {brace : Brace}
    (h : at? text.toByteArray i = some brace) :
    String.Pos.Raw.IsValid text ⟨i⟩ ∧ String.Pos.Raw.IsValid text ⟨i + 1⟩ := by
  rw [toByteArray_eq_utf8Encode] at h
  obtain ⟨front, c, back, hsplit, hpos, hbrace⟩ := exists_split_of_at? h
  refine ⟨isValid_iff_exists_split.mpr ⟨front, c :: back, hsplit, hpos⟩,
    isValid_iff_exists_split.mpr ⟨front ++ [c], back, ?_, ?_⟩⟩
  · rw [hsplit, List.append_assoc]
    rfl
  · rw [width_append, width_cons, width_nil, utf8Size_of_ofChar? hbrace, hpos]

/-- A search ends at the brace that it finds. -/
theorem at?_of_next? {bytes : ByteArray} {i j : Nat} {brace : Brace}
    (h : next? bytes i = some (j, brace)) : at? bytes j = some brace := by
  fun_induction next? bytes i with
  | case1 i hi b hb =>
    cases h
    unfold at?
    rw [getElem?_pos bytes _ hi]
    exact hb
  | case2 i hi hb ih => exact ih h
  | case3 => exact absurd h (by simp)

end Brace

/-! ## Cuts -/

/-- The text that stands in a span, unless the ends of the span are the wrong way round or one of
them is no boundary. -/
def Span.cut? (text : String) (span : Span) : Option String :=
  if span.start ≤ span.stop then
    match text.pos? ⟨span.start⟩, text.pos? ⟨span.stop⟩ with
    | some start, some stop => some (text.extract start stop)
    | _, _ => none
  else
    none

/-- A piece with its text in place of its span, if its text can be cut. -/
def Piece.segment? (text : String) : Piece → Option Segment
  | .literal span => (span.cut? text).map .literal
  | .placeholder span => (span.cut? text).map .placeholder

/-- The segments of a template, if all its pieces can be cut. -/
def Segment.scan? (text : String) : Option (List Segment) :=
  (Piece.scan text.toByteArray).toList.mapM (Piece.segment? text)

/-- A span at which a text can be cut. -/
structure Span.Cuts (text : String) (span : Span) : Prop where
  ordered : span.start ≤ span.stop
  inside : span.stop ≤ text.utf8ByteSize
  start_isValid : String.Pos.Raw.IsValid text ⟨span.start⟩
  stop_isValid : String.Pos.Raw.IsValid text ⟨span.stop⟩

/-- At such a span there is something to cut. -/
theorem Span.cut?_eq_some {text : String} {span : Span} (h : span.Cuts text) :
    span.cut? text = some (span.cut text) := by
  unfold Span.cut? Span.cut
  rw [if_pos h.ordered, pos?_of_isValid h.start_isValid, pos?_of_isValid h.stop_isValid]

theorem Piece.segment?_eq_some {text : String} {piece : Piece} (h : piece.span.Cuts text) :
    piece.segment? text = some (piece.segment text) := by
  cases piece with
  | literal span => exact congrArg (Option.map Segment.literal) (Span.cut?_eq_some h)
  | placeholder span => exact congrArg (Option.map Segment.placeholder) (Span.cut?_eq_some h)

theorem Piece.mapM_segment?_eq_some {text : String} {pieces : List Piece}
    (h : ∀ piece ∈ pieces, piece.span.Cuts text) :
    pieces.mapM (Piece.segment? text) = some (pieces.map (Piece.segment text)) := by
  induction pieces with
  | nil => rfl
  | cons piece pieces ih =>
    rw [List.forall_mem_cons] at h
    rw [List.mapM_cons, Piece.segment?_eq_some h.1, ih h.2]
    rfl

namespace Cursor

/-! ## What one move does -/

/-- Inside the text, a move goes over literal text, not beyond the end, or takes the name between
two braces. -/
theorem step_eq_skipTo_or_take {bytes : ByteArray} {c : Cursor} (h : c.pos < bytes.size) :
    (∃ pos, c.pos < pos ∧ pos ≤ bytes.size ∧ c.step bytes = c.skipTo pos) ∨
      ∃ close, Brace.at? bytes c.pos = some .opening ∧ Brace.at? bytes close = some .closing ∧
        c.pos + 1 < close ∧ close < bytes.size ∧ c.step bytes = c.take close := by
  by_cases hat : Brace.at? bytes c.pos = some .opening
  · rw [step_of_opening hat]
    cases hnext : Brace.next? bytes (c.pos + 1) with
    | none => exact .inl ⟨c.pos + 1, by omega, h, rfl⟩
    | some found =>
      obtain ⟨place, brace⟩ := found
      have hbounds := Brace.bounds_of_next? hnext
      cases brace with
      | opening => exact .inl ⟨place, by omega, by omega, rfl⟩
      | closing =>
        by_cases hnamed : c.pos + 1 < place
        · exact .inr ⟨place, hat, Brace.at?_of_next? hnext, hnamed, hbounds.2, if_pos hnamed⟩
        · exact .inl ⟨c.pos + 1, by omega, h, if_neg hnamed⟩
  · exact .inl ⟨c.pos + 1, by omega, h, step_of_at?_ne hat⟩

/-! ## What a scan keeps -/

/-- The literal text in hand begins at a boundary, not behind the cursor; the cursor is not beyond
the end of the text; and the pieces can be cut out of it. -/
structure Sound (text : String) (c : Cursor) : Prop where
  behind : c.literalStart ≤ c.pos
  inside : c.pos ≤ text.utf8ByteSize
  boundary : String.Pos.Raw.IsValid text ⟨c.literalStart⟩
  cuts : ∀ piece ∈ c.pieces, piece.span.Cuts text

variable {text : String} {c : Cursor}

theorem sound_start (text : String) : Sound text start := by
  refine ⟨Nat.le_refl 0, Nat.zero_le _, String.Pos.Raw.isValid_zero, ?_⟩
  intro piece hpiece
  exact absurd hpiece (by simp [start])

/-- Up to a boundary the literal text in hand can be cut. -/
theorem cuts_flush (h : Sound text c) {stop : Nat} (hstop : stop ≤ text.utf8ByteSize)
    (hvalid : String.Pos.Raw.IsValid text ⟨stop⟩) :
    ∀ piece ∈ c.flush stop, piece.span.Cuts text := by
  intro piece hpiece
  unfold flush at hpiece
  split at hpiece
  · next hlt =>
    rcases Array.mem_push.mp hpiece with hmem | heq
    · exact h.cuts piece hmem
    · rw [heq]
      exact ⟨Nat.le_of_lt hlt, hstop, h.boundary, hvalid⟩
  · exact h.cuts piece hpiece

theorem sound_skipTo (h : Sound text c) {pos : Nat} (hlt : c.pos < pos)
    (hpos : pos ≤ text.utf8ByteSize) : Sound text (c.skipTo pos) := by
  have hbehind := h.behind
  refine ⟨?_, hpos, h.boundary, h.cuts⟩
  show c.literalStart ≤ pos
  omega

/-- Between two braces the name can be cut, and so can the literal text before them. -/
theorem sound_take (h : Sound text c) {close : Nat}
    (hopen : Brace.at? text.toByteArray c.pos = some .opening)
    (hclose : Brace.at? text.toByteArray close = some .closing) (hnamed : c.pos + 1 < close)
    (hinside : close < text.utf8ByteSize) : Sound text (c.take close) := by
  obtain ⟨hpos, hname⟩ := Brace.isValid_of_at? hopen
  obtain ⟨hstop, hbehind⟩ := Brace.isValid_of_at? hclose
  refine ⟨Nat.le_refl _, hinside, hbehind, ?_⟩
  intro piece hpiece
  rcases Array.mem_push.mp hpiece with hmem | heq
  · exact cuts_flush h h.inside hpos piece hmem
  · rw [heq]
    exact ⟨Nat.le_of_lt hnamed, Nat.le_of_lt hinside, hname, hstop⟩

theorem sound_step (h : Sound text c) (hlt : c.pos < text.utf8ByteSize) :
    Sound text (c.step text.toByteArray) := by
  have hlt' : c.pos < text.toByteArray.size := hlt
  rcases step_eq_skipTo_or_take hlt' with
    ⟨pos, hpos, hinside, hstep⟩ | ⟨close, hopen, hclose, hnamed, hinside, hstep⟩
  · rw [hstep]
    exact sound_skipTo h hpos hinside
  · rw [hstep]
    exact sound_take h hopen hclose hnamed hinside

/-- All cursors that a scan comes by are sound. -/
theorem sound_of_visited (h : Visited text.toByteArray c) : Sound text c := by
  induction h with
  | start => exact sound_start text
  | step _ hlt ih => exact sound_step ih hlt

/-! ## The run -/

/-- A run ends at a cursor that the scan comes by. -/
theorem visited_run {bytes : ByteArray} (h : Visited bytes c) : Visited bytes (c.run bytes) := by
  fun_induction run bytes c with
  | case1 c hlt ih => exact ih (h.step hlt)
  | case2 c hge => exact h

theorem size_le_pos_run (bytes : ByteArray) (c : Cursor) : bytes.size ≤ (c.run bytes).pos := by
  fun_induction run bytes c with
  | case1 c hlt ih => exact ih
  | case2 c hge => exact Nat.not_lt.mp hge

/-- A run is a number of moves, at most one for each byte that is left. -/
theorem exists_iterate_eq_run (bytes : ByteArray) (c : Cursor) :
    ∃ moves, moves ≤ bytes.size - c.pos ∧ (step bytes)^[moves] c = c.run bytes := by
  fun_induction run bytes c with
  | case1 c hlt ih =>
    obtain ⟨moves, hmoves, hrun⟩ := ih
    have hforward := pos_lt_step bytes c
    refine ⟨moves + 1, by omega, ?_⟩
    rw [Function.iterate_succ_apply, hrun]
  | case2 c hge => exact ⟨0, Nat.zero_le _, rfl⟩

/-- The later of two moves ends further on. -/
theorem strictMono_pos_iterate (bytes : ByteArray) (c : Cursor) :
    StrictMono fun moves => ((step bytes)^[moves] c).pos := by
  apply strictMono_nat_of_lt_succ
  intro moves
  rw [Function.iterate_succ_apply']
  exact pos_lt_step bytes _

/-- The scan of a text that begins with a longer character comes to stand inside it. -/
theorem exists_visited_not_isValid {first : Char} {rest : List Char}
    (htext : text.toList = first :: rest) (hlong : 1 < first.utf8Size) :
    ∃ c, Visited text.toByteArray c ∧ ¬ String.Pos.Raw.IsValid text ⟨c.pos⟩ := by
  have hfirst : first ≠ '{' := by
    intro heq
    rw [heq, utf8Size_opening] at hlong
    exact absurd hlong (by simp)
  have hat : Brace.at? text.toByteArray 0 ≠ some .opening := by
    intro hopen
    rw [toByteArray_eq_utf8Encode, htext, ← List.nil_append (first :: rest),
      ← width_nil, Brace.at?_width] at hopen
    exact hfirst (Brace.eq_of_ofChar?_eq_opening hopen)
  have hsize : 0 < text.toByteArray.size := by
    rw [toByteArray_eq_utf8Encode, size_utf8Encode, htext, width_cons]
    omega
  refine ⟨start.step text.toByteArray, .step .start hsize, ?_⟩
  rw [step_of_at?_ne hat]
  exact not_isValid_of_lt htext (by decide) hlong

end Cursor

namespace Segment

/-- All pieces of a text can be cut out of it. -/
theorem cuts_of_mem_scan (text : String) :
    ∀ piece ∈ Piece.scan text.toByteArray, piece.span.Cuts text :=
  Cursor.cuts_flush (Cursor.sound_of_visited (Cursor.visited_run .start)) (Nat.le_refl _)
    String.Pos.Raw.isValid_rawEndPos

/-- The scan of any text stays inside the text, with the literal text in hand beginning at a
boundary not behind the cursor; it goes strictly forward and is at the end after at most as many
moves as the text has bytes; each span that it cuts has its ends in order, inside the text and at
boundaries, so that all cuts succeed; and the segments and names are those of the scan by
characters.  The cursor itself need not be at a boundary: it stands inside a longer character that
begins the text. -/
theorem scan_at_boundaries (text : String) :
    (∀ c, Cursor.Visited text.toByteArray c →
      c.literalStart ≤ c.pos ∧ c.pos ≤ text.utf8ByteSize ∧
        String.Pos.Raw.IsValid text ⟨c.literalStart⟩) ∧
      (StrictMono fun moves => ((Cursor.step text.toByteArray)^[moves] .start).pos) ∧
      (∃ moves, moves ≤ text.utf8ByteSize ∧
        (Cursor.step text.toByteArray)^[moves] .start = Cursor.start.run text.toByteArray ∧
        (Cursor.start.run text.toByteArray).pos = text.utf8ByteSize) ∧
      (∀ piece ∈ Piece.scan text.toByteArray, piece.span.Cuts text) ∧
      scan? text = some (scan text) ∧ scan text = ofChars text.toList ∧
      (∀ r : Route, r.template = text → r.names = names (ofChars text.toList)) ∧
      (∀ first rest, text.toList = first :: rest → 1 < first.utf8Size →
        ∃ c, Cursor.Visited text.toByteArray c ∧ ¬ String.Pos.Raw.IsValid text ⟨c.pos⟩) := by
  have hcuts := cuts_of_mem_scan text
  refine ⟨?_, Cursor.strictMono_pos_iterate _ _, ?_, hcuts, ?_, scan_eq_ofChars text, ?_, ?_⟩
  · intro c hvisited
    have hsound := Cursor.sound_of_visited hvisited
    exact ⟨hsound.behind, hsound.inside, hsound.boundary⟩
  · obtain ⟨moves, hmoves, hrun⟩ := Cursor.exists_iterate_eq_run text.toByteArray .start
    have hsound : Cursor.Sound text (Cursor.start.run text.toByteArray) :=
      Cursor.sound_of_visited (Cursor.visited_run .start)
    exact ⟨moves, hmoves, hrun,
      Nat.le_antisymm hsound.inside (Cursor.size_le_pos_run text.toByteArray .start)⟩
  · apply Piece.mapM_segment?_eq_some
    intro piece hpiece
    exact hcuts piece (Array.mem_toList_iff.mp hpiece)
  · intro r htemplate
    rw [r.names_eq, r.segments_eq, htemplate, scan_eq_ofChars]
  · intro first rest htext hlong
    exact Cursor.exists_visited_not_isValid htext hlong

end Segment

/-- A route whose template has longer characters, in its literal text and in a name. -/
def Route.umlauts : Route := .ofTemplate "ü/{näme}"

namespace Segment

/-- The scan comes to stand inside the first character, and cuts behind it and around the name. -/
theorem scan_at_boundaries_umlauts :
    scan? Route.umlauts.template = some [literal "ü/", placeholder "näme"] ∧
      Route.umlauts.names = ["näme"] ∧
      ∃ c, Cursor.Visited Route.umlauts.template.toByteArray c ∧
        ¬ String.Pos.Raw.IsValid Route.umlauts.template ⟨c.pos⟩ := by
  have hread : ofChars Route.umlauts.template.toList = [literal "ü/", placeholder "näme"] := by
    decide +kernel
  obtain ⟨-, -, -, -, hcuts, hchars, hnames, hinside⟩ := scan_at_boundaries Route.umlauts.template
  refine ⟨?_, ?_, ?_⟩
  · rw [hcuts, hchars, hread]
  · rw [hnames Route.umlauts rfl, hread]
    rfl
  · exact hinside 'ü' "/{näme}".toList (by decide) (by decide)

end Segment

end PathTemplate
