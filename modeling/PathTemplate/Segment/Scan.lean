import PathTemplate.Segment
import PathTemplate.Segment.Cursor

/-!
# Template text as segments

`Segment.scan` is what a template says: its pieces in order, each cut out of the text.  Every text
can be read so; what is no placeholder is literal.

A route keeps a template in another form (`Reading`).  The names are in an array of their own, and a
placeholder has the number of its name there, counted from 0.  Both come of one run over the pieces:
a placeholder takes the number that its name is about to get.
-/

namespace PathTemplate

/-- The text that stands in a span.  Where an end of the span is no character boundary there is
nothing to cut; the scan makes no such span. -/
def Span.cut (text : String) (span : Span) : String :=
  match text.pos? ⟨span.start⟩, text.pos? ⟨span.stop⟩ with
  | some start, some stop => text.extract start stop
  | _, _ => ""

/-- At a character boundary there is a position. -/
theorem pos?_of_isValid {text : String} {i : String.Pos.Raw} (h : i.IsValid text) :
    text.pos? i = some ⟨i, h⟩ := by
  have hi : i.isValidForSlice text.toSlice = true := by
    rw [String.Pos.Raw.isValidForSlice_eq_true_iff]
    exact String.Pos.Raw.isValidForSlice_toSlice_iff.2 h
  simp only [String.pos?, String.Slice.pos?, hi]
  rfl

/-- Between the ends of its middle part, a text holds its middle part. -/
theorem Span.cut_append (front middle back : String) :
    Span.cut (front ++ middle ++ back)
      ⟨front.utf8ByteSize, front.utf8ByteSize + middle.utf8ByteSize⟩ = middle := by
  have hfront : String.Pos.Raw.IsValid (front ++ middle ++ back) ⟨front.utf8ByteSize⟩ :=
    String.Pos.Raw.isValid_iff_exists_append.2 ⟨front, middle ++ back, String.append_assoc, rfl⟩
  have hmiddle : String.Pos.Raw.IsValid (front ++ middle ++ back)
      ⟨front.utf8ByteSize + middle.utf8ByteSize⟩ :=
    String.Pos.Raw.isValid_iff_exists_append.2
      ⟨front ++ middle, back, rfl, by simp [String.Pos.Raw.ext_iff]⟩
  unfold Span.cut
  rw [pos?_of_isValid hfront, pos?_of_isValid hmiddle]
  apply String.toByteArray_inj.1
  simp only [String.toByteArray_extract, String.toByteArray_append]
  rw [ByteArray.append_assoc, ByteArray.extract_append, ByteArray.extract_append]
  have hempty : front.toByteArray.extract front.toByteArray.size
      (front.toByteArray.size + middle.toByteArray.size) = ByteArray.empty := by
    rw [ByteArray.extract_eq_empty_iff]
    omega
  simp [← String.size_toByteArray, hempty]

/-- A piece with its text in place of its span. -/
def Piece.segment (text : String) : Piece → Segment
  | .literal span => .literal (span.cut text)
  | .placeholder span => .placeholder (span.cut text)

/-- The segments of a template. -/
def Segment.scan (text : String) : List Segment :=
  (Piece.scan text.toByteArray).toList.map (Piece.segment text)

/-- A template as it is kept for use. -/
structure Reading where
  /-- The placeholders' names in template order, each as often as it occurs. -/
  names : Array String
  /-- The segments, with the number of a name in the place of the name. -/
  segments : Array (Segment Nat)
  deriving DecidableEq, Repr

namespace Reading

/-- Nothing read yet. -/
def empty : Reading := ⟨#[], #[]⟩

/-- The reading with one more piece. -/
def add (text : String) (reading : Reading) : Piece → Reading
  | .literal span => ⟨reading.names, reading.segments.push (.literal (span.cut text))⟩
  | .placeholder span =>
    ⟨reading.names.push (span.cut text), reading.segments.push (.placeholder reading.names.size)⟩

/-- The reading of a template. -/
def scan (text : String) : Reading :=
  (Piece.scan text.toByteArray).foldl (add text) empty

/-- The name that has a number.  Where no name has it there is nothing to tell; the placeholders of
a template that was read have no such number. -/
def name (reading : Reading) (number : Nat) : String :=
  reading.names[number]?.getD ""

/-- The segments with the names in the place of their numbers. -/
def named (reading : Reading) : List Segment :=
  reading.segments.toList.map (Segment.rename reading.name)

end Reading

end PathTemplate
