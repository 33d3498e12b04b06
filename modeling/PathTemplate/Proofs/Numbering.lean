import PathTemplate.Route

/-!
# Numbering: placeholders and the numbers of their names

A route keeps the names of its template in an array, and in its segments a placeholder has the
number of its name.  The numbers are given out in order, one for each placeholder (`Numbered`), so
each of them is the number of a name.  A number stays the number of its name when further names come
after it, which is why the whole run over the pieces can be looked at piece by piece.

> `numbered_scan`: the first placeholder of a template has the number of the first name, the second
> one that of the second, and there are no other names.
> `named_scan`: with the names in the place of their numbers, what a route keeps is what the
> template says.
-/

namespace PathTemplate

namespace Reading

/-- The placeholders have the numbers of all names, in order. -/
def Numbered (reading : Reading) : Prop :=
  Segment.names reading.segments.toList = List.range reading.names.size

variable {text : String} {reading : Reading}

/-- A placeholder has the number of a name. -/
theorem lt_size_of_numbered (h : reading.Numbered) {number : Nat}
    (hnumber : number ∈ Segment.names reading.segments.toList) : number < reading.names.size := by
  rw [h] at hnumber
  exact List.mem_range.mp hnumber

/-- A placeholder has as many others before it as its number says. -/
theorem eq_length_of_numbered (h : reading.Numbered) {front back : List (Segment Nat)}
    {number : Nat} (hsplit : reading.segments.toList = front ++ .placeholder number :: back) :
    number = (Segment.names front).length := by
  have hget : (Segment.names reading.segments.toList)[(Segment.names front).length]? =
      some number := by
    rw [hsplit, Segment.names_append, List.getElem?_append_right (Nat.le_refl _), Nat.sub_self]
    rfl
  rw [h] at hget
  obtain ⟨_, hnumber⟩ := List.getElem?_eq_some_iff.mp hget
  rw [← hnumber, List.getElem_range]

theorem name_eq_getElem {number : Nat} (h : number < reading.names.size) :
    reading.name number = reading.names[number] := by
  rw [name, Array.getElem?_eq_getElem h, Option.getD_some]

/-- The names are the names of the numbers that placeholders have. -/
theorem map_name_range (reading : Reading) :
    (List.range reading.names.size).map reading.name = reading.names.toList := by
  apply List.ext_getElem
  · simp
  · intro number hnumber _
    have hlt : number < reading.names.size := by simpa using hnumber
    rw [List.getElem_map, List.getElem_range, name_eq_getElem hlt, Array.getElem_toList]

/-- With names in the place of numbers, the placeholders' names are the names. -/
theorem names_named (h : reading.Numbered) :
    Segment.names reading.named = reading.names.toList := by
  rw [named, Segment.names_map_rename, h, map_name_range]

/-! ## One more piece -/

theorem numbered_empty : empty.Numbered := rfl

theorem numbered_add (h : reading.Numbered) (piece : Piece) :
    (reading.add text piece).Numbered := by
  unfold Numbered at h ⊢
  cases piece with
  | literal span =>
    simp only [add, Array.toList_push, Segment.names_append, h]
    exact List.append_nil _
  | placeholder span =>
    simp only [add, Array.toList_push, Segment.names_append, Array.size_push, List.range_succ, h]
    rfl

/-- A name keeps its number when another one comes after it. -/
theorem name_push {number : Nat} (h : number < reading.names.size) (last : String)
    (segments : Array (Segment Nat)) :
    name ⟨reading.names.push last, segments⟩ number = reading.name number := by
  rw [name_eq_getElem h, name, Array.getElem?_push_lt h, Option.getD_some]

/-- The name that comes last has the number that was next. -/
theorem name_push_size (reading : Reading) (last : String) (segments : Array (Segment Nat)) :
    name ⟨reading.names.push last, segments⟩ reading.names.size = last := by
  rw [name, Array.getElem?_push_size, Option.getD_some]

/-- With names in the place of numbers, a piece comes behind the segments that are there. -/
theorem named_add (h : reading.Numbered) (piece : Piece) :
    (reading.add text piece).named = reading.named ++ [piece.segment text] := by
  cases piece with
  | literal span =>
    simp only [named, add, Array.toList_push, List.map_append]
    rfl
  | placeholder span =>
    have hfront : reading.segments.toList.map
        (Segment.rename (reading.add text (.placeholder span)).name) = reading.named :=
      Segment.map_rename_congr fun number hnumber => name_push (lt_size_of_numbered h hnumber) _ _
    have hlast : (reading.add text (.placeholder span)).name reading.names.size = span.cut text :=
      name_push_size ..
    show (reading.segments.push (.placeholder reading.names.size)).toList.map
      (Segment.rename (reading.add text (.placeholder span)).name) = _
    rw [Array.toList_push, List.map_append, hfront, List.map_singleton, Segment.rename, hlast]
    rfl

/-! ## All pieces -/

/-- After any pieces, the numbers are given out in order. -/
theorem numbered_foldl_add (h : reading.Numbered) (pieces : List Piece) :
    (pieces.foldl (add text) reading).Numbered := by
  induction pieces generalizing reading with
  | nil => exact h
  | cons piece pieces ih => exact ih (numbered_add h piece)

/-- With names in the place of numbers, pieces come behind the segments that are there. -/
theorem named_foldl_add (h : reading.Numbered) (pieces : List Piece) :
    (pieces.foldl (add text) reading).named = reading.named ++ pieces.map (Piece.segment text) := by
  induction pieces generalizing reading with
  | nil => exact (List.append_nil _).symm
  | cons piece pieces ih =>
    rw [List.foldl_cons, ih (numbered_add h piece), named_add h, List.append_assoc]
    rfl

theorem numbered_scan (text : String) : (scan text).Numbered := by
  rw [scan, ← Array.foldl_toList]
  exact numbered_foldl_add numbered_empty _

/-- A name that occurs twice has two numbers. -/
example : scan "{a}-{b}{a}" =
    ⟨#["a", "b", "a"], #[.placeholder 0, .literal "-", .placeholder 1, .placeholder 2]⟩ := by
  decide +kernel

/-- What is kept of a template is what the template says, with the names in the place of their
numbers. -/
theorem named_scan (text : String) : (scan text).named = Segment.scan text := by
  rw [scan, ← Array.foldl_toList, named_foldl_add numbered_empty]
  rfl

/-- The names that are kept of a template are those of its placeholders. -/
theorem toList_names_scan (text : String) :
    (scan text).names.toList = Segment.names (Segment.scan text) := by
  rw [← names_named (numbered_scan text), named_scan]

end Reading

namespace Route

/-- The segments of a route are those of its template. -/
theorem segments_eq (r : Route) : r.segments = Segment.scan r.template := by
  rw [segments, r.reading_eq, Reading.named_scan]

/-- The names of a route are those of its segments. -/
theorem names_eq (r : Route) : r.names = Segment.names r.segments := by
  rw [segments_eq, names, r.reading_eq, Reading.toList_names_scan]

/-- A pattern has no names in it, nor their numbers. -/
theorem pattern_eq (r : Route) : r.pattern = String.ofList (Pattern.ofSegments r.segments) := by
  rw [pattern, segments, Reading.named, Pattern.ofSegments_map_rename, numbered]

/-- Neither has a frame. -/
theorem captures?_eq (r : Route) (path : String) :
    r.captures? path =
      ((Frame.ofSegments r.segments).captures? path.toList).map (List.map String.ofList) := by
  rw [captures?, segments, Reading.named, Frame.ofSegments_map_rename, numbered]

end Route

end PathTemplate
