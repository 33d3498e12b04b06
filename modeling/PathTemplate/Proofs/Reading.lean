import PathTemplate.Proofs.Bytes

/-!
# Reading a template: bytes and characters agree

`Segment.scan` moves a cursor over the bytes of a template and cuts pieces out of it.
`Segment.readChars` reads the characters and keeps what is literal in hand.  The two make the same
moves.  A cursor that stands between two characters has some characters behind it that are done
with, and behind those the ones in hand (`Cursor.between`).  The scan from such a cursor finds the
segments that `readChars` finds:

> `segments_run_between`: the pieces of the finished scan, cut out of the text, are those at hand
> and then the segments of the rest of the text.

The induction is on the moves of `readChars`.  For a literal character the cursor may make several
moves and stand inside the character after some of them; `run_eq_run_skipTo` takes them as one.

Put together, `scan_eq_ofChars`: a template is read alike by bytes and by characters.  And no
character is lost: written as text again, the segments are the template (`render_scan`).
-/

namespace PathTemplate

theorem utf8ByteSize_ofList (chars : List Char) :
    (String.ofList chars).utf8ByteSize = width chars := by
  rw [← String.size_toByteArray, String.toByteArray_ofList, size_utf8Encode]

/-- Between two splits stand the characters between them. -/
theorem cut_width (front middle back : List Char) :
    Span.cut (String.ofList (front ++ middle ++ back)) ⟨width front, width (front ++ middle)⟩ =
      String.ofList middle := by
  have hcut := Span.cut_append (String.ofList front) (String.ofList middle) (String.ofList back)
  rw [utf8ByteSize_ofList, utf8ByteSize_ofList, ← width_append] at hcut
  rw [String.ofList_append, String.ofList_append]
  exact hcut

/-- Up to its first brace a text is a name. -/
theorem isBrace_takeWhile (chars : List Char) :
    ∀ c ∈ chars.takeWhile (!isBrace ·), isBrace c = false := by
  intro c hc
  have hall := List.all_eq_true.mp (List.all_takeWhile (p := (!isBrace ·)) (l := chars)) c hc
  simpa using hall

theorem eq_name_append {chars tail : List Char} (h : chars.dropWhile (!isBrace ·) = tail) :
    chars = chars.takeWhile (!isBrace ·) ++ tail := by
  rw [← h, List.takeWhile_append_dropWhile]

/-- Where a name does not end in a brace, it ends the text. -/
theorem dropWhile_eq_nil {chars : List Char}
    (hclosing : ∀ after, chars.dropWhile (!isBrace ·) = '}' :: after → False)
    (hopening : ∀ after, chars.dropWhile (!isBrace ·) = '{' :: after → False) :
    chars.dropWhile (!isBrace ·) = [] := by
  cases hdrop : chars.dropWhile (!isBrace ·) with
  | nil => rfl
  | cons c after =>
    have hhead := List.head_dropWhile_not (!isBrace ·) (l := chars) (by rw [hdrop]; simp)
    have hc : isBrace c = true := by simpa [hdrop] using hhead
    unfold isBrace at hc
    rcases of_decide_eq_true hc with ho | hc
    · exact absurd (ho ▸ hdrop) (fun h => hopening after h)
    · exact absurd (hc ▸ hdrop) (fun h => hclosing after h)

namespace Segment

/-! ## Nothing is lost -/

theorem render_ofLiteral (chars : List Char) : render (ofLiteral chars) = String.ofList chars := by
  unfold ofLiteral
  by_cases h : chars = []
  · rw [if_pos h, h]
    rfl
  · rw [if_neg h, render_cons, render_nil, String.append_empty]
    rfl

/-- The segments of a text are the characters in hand and the text. -/
theorem render_readChars (held text : List Char) :
    render (readChars held text) = String.ofList (held.reverse ++ text) := by
  fun_induction readChars held text with
  | case1 held => rw [render_ofLiteral, List.append_nil]
  | case2 held rest name after h hnil ih =>
    -- both braces stay in hand
    simp [ih]
  | case3 held rest name after h hne ih =>
    have hrest : rest = name ++ '}' :: after := eq_name_append h
    rw [render_append, render_ofLiteral, render_cons, ih, hrest]
    simp [source, String.ofList_append, String.ofList_cons, String.append_assoc]
  | case4 held rest name after h ih =>
    have hrest : rest = name ++ '{' :: after := eq_name_append h
    rw [ih, hrest]
    simp
  | case5 held rest hclosing hopening ih => simp [ih]
  | case6 held c rest hc ih => simp [ih]

end Segment

namespace Cursor

/-! ## Moves between characters -/

/-- The cursor behind the characters in hand, which are kept last character first and begin behind
those that are done with. -/
def between (done held : List Char) (pieces : Array Piece) : Cursor :=
  ⟨width done, width (done ++ held.reverse), pieces⟩

/-- The characters in hand become a literal, if there are any. -/
theorem segments_flush (done held back : List Char) (pieces : Array Piece) :
    let text := String.ofList (done ++ held.reverse ++ back)
    ((between done held pieces).flush (width (done ++ held.reverse))).toList.map
        (Piece.segment text) =
      pieces.toList.map (Piece.segment text) ++ Segment.ofLiteral held.reverse := by
  intro text
  unfold flush between Segment.ofLiteral
  by_cases h : held.reverse = []
  · rw [h, if_pos rfl, List.append_nil, if_neg (Nat.lt_irrefl _), List.append_nil]
  · have hlt : width done < width (done ++ held.reverse) := by
      have hpos := width_pos h
      rw [width_append]
      omega
    have hcut : Piece.segment text (.literal ⟨width done, width (done ++ held.reverse)⟩) =
        .literal (String.ofList held.reverse) :=
      congrArg Segment.literal (cut_width done held.reverse back)
    rw [if_neg h]
    simp only [hlt, if_true, Array.toList_push, List.map_append, List.map_cons, List.map_nil, hcut]

/-- One more literal character is in hand. -/
theorem skipTo_between (done held : List Char) (pieces : Array Piece) (c : Char) :
    (between done held pieces).skipTo (width (done ++ held.reverse) + c.utf8Size) =
      between done (c :: held) pieces := by
  simp [skipTo, between, Nat.add_assoc]

/-- Behind a placeholder nothing is in hand. -/
theorem take_between (done held name : List Char) (pieces : Array Piece) :
    (between done held pieces).take (width (done ++ held.reverse) + 1 + width name) =
      between (done ++ held.reverse ++ '{' :: (name ++ ['}'])) []
        (((between done held pieces).flush (width (done ++ held.reverse))).push
          (.placeholder ⟨width (done ++ held.reverse) + 1,
            width (done ++ held.reverse) + 1 + width name⟩)) := by
  simp only [take, between, List.reverse_nil, List.append_nil, width_append, width_cons, width_nil,
    utf8Size_opening, utf8Size_closing, Nat.add_zero, Nat.add_assoc]

/-- The name of a placeholder is cut out of the text. -/
theorem segment_placeholder (front name back : List Char) :
    Piece.segment (String.ofList (front ++ '{' :: (name ++ back)))
        (.placeholder ⟨width front + 1, width front + 1 + width name⟩) =
      .placeholder (String.ofList name) := by
  have hsplit : front ++ '{' :: (name ++ back) = front ++ ['{'] ++ name ++ back := by simp
  have hcut := cut_width (front ++ ['{']) name back
  rw [width_append (front ++ ['{']) name, width_append_opening] at hcut
  rw [hsplit]
  exact congrArg Segment.placeholder hcut

/-- The scan from a cursor between characters finds what `readChars` finds there. -/
theorem segments_run_between (text : String) (held back : List Char) :
    ∀ (done : List Char) (pieces : Array Piece),
      text = String.ofList (done ++ held.reverse ++ back) →
      (((between done held pieces).run text.toByteArray).flush text.toByteArray.size).toList.map
          (Piece.segment text) =
        pieces.toList.map (Piece.segment text) ++ Segment.readChars held back := by
  fun_induction Segment.readChars held back with
  | case1 held =>
    intro done pieces htext
    have hbytes : text.toByteArray = (done ++ held.reverse).utf8Encode := by
      rw [htext, String.toByteArray_ofList, List.append_nil]
    have hend : ¬ (between done held pieces).pos < text.toByteArray.size := by
      rw [hbytes, size_utf8Encode]
      exact Nat.lt_irrefl _
    rw [run, if_neg hend, hbytes, size_utf8Encode, htext]
    exact segments_flush done held [] pieces
  | case2 held rest name after h hnil ih =>
    -- braces that hold nothing: the opening one is a literal character
    intro done pieces htext
    have hrest : rest = name ++ '}' :: after := eq_name_append h
    rw [hnil, List.nil_append] at hrest
    have hrun : (between done held pieces).run text.toByteArray =
        (between done ('{' :: held) pieces).run text.toByteArray := by
      rw [htext, String.toByteArray_ofList, run_eq_run_step rfl, hrest, step_eq_skipTo_of_empty rfl]
      exact congrArg (Cursor.run _) (skipTo_between done held pieces '{')
    rw [hrun]
    exact ih done pieces (by simp [htext])
  | case3 held rest name after h hne ih =>
    intro done pieces htext
    have hrest : rest = name ++ '}' :: after := eq_name_append h
    have hname : ∀ d ∈ name, isBrace d = false := isBrace_takeWhile rest
    -- the cursor takes the placeholder, and what was in hand is a literal
    have hrun : (between done held pieces).run text.toByteArray =
        (between (done ++ held.reverse ++ '{' :: (name ++ ['}'])) []
          (((between done held pieces).flush (width (done ++ held.reverse))).push
            (.placeholder ⟨width (done ++ held.reverse) + 1,
              width (done ++ held.reverse) + 1 + width name⟩))).run text.toByteArray := by
      rw [htext, String.toByteArray_ofList, run_eq_run_step rfl, hrest, step_eq_take hname hne rfl,
        take_between]
    have hflush : ((between done held pieces).flush (width (done ++ held.reverse))).toList.map
        (Piece.segment text) =
          pieces.toList.map (Piece.segment text) ++ Segment.ofLiteral held.reverse := by
      rw [htext]
      exact segments_flush done held ('{' :: rest) pieces
    have hplaceholder : Piece.segment text (.placeholder ⟨width (done ++ held.reverse) + 1,
        width (done ++ held.reverse) + 1 + width name⟩) = .placeholder (String.ofList name) := by
      rw [htext, hrest]
      exact segment_placeholder (done ++ held.reverse) name ('}' :: after)
    rw [hrun, ih _ _ (by simp [htext, hrest]), Array.toList_push, List.map_append, hflush,
      List.map_singleton, hplaceholder]
    simp
  | case4 held rest name after h ih =>
    -- another brace opens first: the cursor leaps to it
    intro done pieces htext
    have hrest : rest = name ++ '{' :: after := eq_name_append h
    have hname : ∀ d ∈ name, isBrace d = false := isBrace_takeWhile rest
    have hrun : (between done held pieces).run text.toByteArray =
        (between done (name.reverse ++ '{' :: held) pieces).run text.toByteArray := by
      rw [htext, String.toByteArray_ofList, run_eq_run_step rfl, hrest,
        step_eq_skipTo_of_opening hname rfl]
      apply congrArg (Cursor.run _)
      simp [skipTo, between, utf8Size_opening, Nat.add_assoc]
    rw [hrun]
    exact ih done pieces (by simp [htext, hrest])
  | case5 held rest hclosing hopening ih =>
    -- no brace is left behind this one, so it is a literal character too
    intro done pieces htext
    have hname : ∀ d ∈ rest, isBrace d = false := by
      have hrest := eq_name_append (dropWhile_eq_nil hclosing hopening)
      rw [List.append_nil] at hrest
      rw [hrest]
      exact isBrace_takeWhile rest
    have hrun : (between done held pieces).run text.toByteArray =
        (between done ('{' :: held) pieces).run text.toByteArray := by
      rw [htext, String.toByteArray_ofList, run_eq_run_step rfl,
        step_eq_skipTo_of_unclosed hname rfl]
      exact congrArg (Cursor.run _) (skipTo_between done held pieces '{')
    rw [hrun]
    exact ih done pieces (by simp [htext])
  | case6 held c rest hc ih =>
    -- the cursor goes over the bytes of the character one by one
    intro done pieces htext
    have hrun : (between done held pieces).run text.toByteArray =
        (between done (c :: held) pieces).run text.toByteArray := by
      rw [htext, String.toByteArray_ofList, run_eq_run_skipTo_width hc rfl, ← skipTo_between]
    rw [hrun]
    exact ih done pieces (by simp [htext])

end Cursor

namespace Segment

/-- Read by bytes and read by characters, a template has the same segments. -/
theorem scan_eq_ofChars (text : String) : scan text = ofChars text.toList := by
  have hscan := Cursor.segments_run_between text [] text.toList [] #[] (by simp)
  exact hscan

/-- The segments of a template, written as text again, are the template. -/
theorem render_scan (text : String) : render (scan text) = text := by
  rw [scan_eq_ofChars, ofChars, render_readChars, List.reverse_nil, List.nil_append,
    String.ofList_toList]

end Segment

end PathTemplate
