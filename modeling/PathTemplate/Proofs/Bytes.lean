import PathTemplate.Segment.Chars
import PathTemplate.Segment.Scan

/-!
# Braces in bytes, braces in characters

The byte cursor looks at bytes, and a template is made of characters.  The two agree on braces,
since both braces are ASCII and each byte of a longer character is at least 128
(`ofByte?_of_mem_utf8EncodeChar`).

A text that is split between characters is split between bytes.  `width` is where the split is.  At
a split the cursor sees the brace that the next character is (`at?_width`); between two splits it
sees no brace that no character between them is (`exists_ofChar?_of_at?`).  So the search for the
next brace goes over a name to the brace behind it (`next?_width`), and a run of the cursor goes
over literal characters in one leap (`run_eq_run_skipTo`).
-/

namespace PathTemplate

/-- The number of bytes that characters take. -/
def width : List Char → Nat
  | [] => 0
  | c :: back => c.utf8Size + width back

@[simp] theorem width_nil : width [] = 0 := rfl

@[simp] theorem width_cons (c : Char) (back : List Char) :
    width (c :: back) = c.utf8Size + width back := rfl

@[simp] theorem width_append (front back : List Char) :
    width (front ++ back) = width front + width back := by
  induction front with
  | nil => rw [List.nil_append, width_nil, Nat.zero_add]
  | cons c front ih => rw [List.cons_append, width_cons, width_cons, ih, Nat.add_assoc]

/-- Only no characters take no bytes. -/
theorem width_pos {chars : List Char} (h : chars ≠ []) : 0 < width chars := by
  cases chars with
  | nil => exact absurd rfl h
  | cons c chars =>
    have hc := c.utf8Size_pos
    rw [width_cons]
    omega

theorem utf8Size_opening : '{'.utf8Size = 1 := by decide

theorem utf8Size_closing : '}'.utf8Size = 1 := by decide

theorem width_append_opening (front : List Char) : width (front ++ ['{']) = width front + 1 := by
  rw [width_append, width_cons, width_nil, utf8Size_opening]

/-- The bytes of a text are those of its characters in order. -/
theorem getElem?_utf8Encode (chars : List Char) (i : Nat) :
    chars.utf8Encode[i]? = (chars.flatMap String.utf8EncodeChar)[i]? := by
  rw [List.utf8Encode]
  by_cases h : i < (chars.flatMap String.utf8EncodeChar).length
  · rw [getElem?_pos _ i (by rw [List.size_toByteArray]; exact h), getElem?_pos _ i h,
      List.getElem_toByteArray]
  · rw [getElem?_neg _ i (by rw [List.size_toByteArray]; exact h), getElem?_neg _ i h]

theorem length_flatMap_utf8EncodeChar (chars : List Char) :
    (chars.flatMap String.utf8EncodeChar).length = width chars := by
  induction chars with
  | nil => rfl
  | cons c chars ih =>
    rw [List.flatMap_cons, List.length_append, ih, String.length_utf8EncodeChar, width_cons]

theorem size_utf8Encode (chars : List Char) : chars.utf8Encode.size = width chars := by
  rw [List.utf8Encode, List.size_toByteArray, length_flatMap_utf8EncodeChar]

namespace Brace

/-- The brace that a character is. -/
def ofChar? (c : Char) : Option Brace :=
  if c = '{' then some opening else if c = '}' then some closing else none

theorem ofChar?_eq_none_iff {c : Char} : ofChar? c = none ↔ isBrace c = false := by
  unfold ofChar? isBrace
  by_cases ho : c = '{'
  · simp [ho]
  · by_cases hc : c = '}'
    · simp [hc]
    · simp [ho, hc]

theorem eq_of_ofChar?_eq_opening {c : Char} (h : ofChar? c = some opening) : c = '{' := by
  unfold ofChar? at h
  split at h
  · next ho => exact ho
  · split at h
    · exact absurd h (by simp)
    · exact absurd h (by simp)

/-! ## Bytes of one character -/

/-- A byte of a longer character is no brace. -/
theorem ofByte?_of_le {byte : UInt8} (h : 128 ≤ byte.toNat) : ofByte? byte = none := by
  have hopening : byte ≠ 0x7b := by
    intro he
    rw [he] at h
    exact absurd h (by decide)
  have hclosing : byte ≠ 0x7d := by
    intro he
    rw [he] at h
    exact absurd h (by decide)
  simp [ofByte?, hopening, hclosing]

/-- Putting in the high bit makes a byte at least 128. -/
theorem le_toNat_or (x : UInt8) {high : UInt8} (h : 128 ≤ high.toNat) :
    128 ≤ (x ||| high).toNat := by
  rw [UInt8.toNat_or]
  exact Nat.le_trans h Nat.right_le_or

/-- All bytes of a longer character are at least 128. -/
theorem le_of_mem_utf8EncodeChar {c : Char} {byte : UInt8} (hc : c.utf8Size ≠ 1)
    (h : byte ∈ String.utf8EncodeChar c) : 128 ≤ byte.toNat := by
  -- the first byte has the marks of the length put in, the others the mark of a continuation
  rcases c.utf8Size_eq with h1 | h2 | h3 | h4
  · exact absurd h1 hc
  · rw [String.utf8EncodeChar_eq_cons_cons h2] at h
    simp only [List.mem_cons, List.not_mem_nil, or_false] at h
    rcases h with rfl | rfl <;> exact le_toNat_or _ (by decide)
  · rw [String.utf8EncodeChar_eq_cons_cons_cons h3] at h
    simp only [List.mem_cons, List.not_mem_nil, or_false] at h
    rcases h with rfl | rfl | rfl <;> exact le_toNat_or _ (by decide)
  · rw [String.utf8EncodeChar_eq_cons_cons_cons_cons h4] at h
    simp only [List.mem_cons, List.not_mem_nil, or_false] at h
    rcases h with rfl | rfl | rfl | rfl <;> exact le_toNat_or _ (by decide)

/-- The one byte of a short character is a character's byte for no other character. -/
theorem toUInt8_eq_iff {c d : Char} (hc : c.utf8Size = 1) (hd : d.utf8Size = 1) :
    c.val.toUInt8 = d.val.toUInt8 ↔ c = d := by
  have hcle := UInt32.le_iff_toNat_le.mp (Char.utf8Size_eq_one_iff.mp hc)
  have hdle := UInt32.le_iff_toNat_le.mp (Char.utf8Size_eq_one_iff.mp hd)
  have hmax : (127 : UInt32).toNat = 127 := rfl
  refine ⟨?_, ?_⟩
  · intro h
    have hnat := congrArg UInt8.toNat h
    rw [UInt32.toNat_toUInt8, UInt32.toNat_toUInt8] at hnat
    exact Char.ext (UInt32.toNat_inj.mp (by omega))
  · intro h
    rw [h]

/-- A byte of a character is the brace that the character is. -/
theorem ofByte?_of_mem_utf8EncodeChar {c : Char} {byte : UInt8}
    (h : byte ∈ String.utf8EncodeChar c) : ofByte? byte = ofChar? c := by
  by_cases hc : c.utf8Size = 1
  · rw [String.utf8EncodeChar_eq_singleton hc, List.mem_singleton] at h
    have hopening : byte = 0x7b ↔ c = '{' := by
      rw [h]
      exact toUInt8_eq_iff hc utf8Size_opening
    have hclosing : byte = 0x7d ↔ c = '}' := by
      rw [h]
      exact toUInt8_eq_iff hc utf8Size_closing
    simp only [ofByte?, ofChar?, hopening, hclosing]
  · -- a longer character is no brace, and none of its bytes is one
    have hne : ∀ d : Char, d.utf8Size = 1 → c ≠ d := fun d hd he => hc (he ▸ hd)
    rw [ofByte?_of_le (le_of_mem_utf8EncodeChar hc h), ofChar?, if_neg (hne '{' utf8Size_opening),
      if_neg (hne '}' utf8Size_closing)]

/-! ## Bytes of a split text -/

/-- At a split stands the brace that the next character is. -/
theorem at?_width (front : List Char) (c : Char) (back : List Char) :
    at? (front ++ c :: back).utf8Encode (width front) = ofChar? c := by
  unfold at?
  rw [getElem?_utf8Encode, List.flatMap_append, ← length_flatMap_utf8EncodeChar front,
    List.getElem?_append_right (Nat.le_refl _), Nat.sub_self, List.flatMap_cons]
  cases hbytes : String.utf8EncodeChar c with
  | nil => exact absurd hbytes String.utf8EncodeChar_ne_nil
  | cons byte bytes =>
    show ofByte? byte = ofChar? c
    exact ofByte?_of_mem_utf8EncodeChar (hbytes ▸ List.mem_cons_self ..)

/-- A brace between two splits is a character between them. -/
theorem exists_ofChar?_of_at? {front middle back : List Char} {i : Nat} {brace : Brace}
    (hfront : width front ≤ i) (hmiddle : i < width (front ++ middle))
    (h : at? (front ++ middle ++ back).utf8Encode i = some brace) :
    ∃ c ∈ middle, ofChar? c = some brace := by
  unfold at? at h
  obtain ⟨byte, hbyte, hbrace⟩ := Option.bind_eq_some_iff.mp h
  rw [getElem?_utf8Encode, List.flatMap_append, List.getElem?_append_left
    (by rw [length_flatMap_utf8EncodeChar]; exact hmiddle), List.flatMap_append,
    List.getElem?_append_right (by rw [length_flatMap_utf8EncodeChar]; exact hfront)] at hbyte
  obtain ⟨c, hc, hmem⟩ := List.mem_flatMap.mp (List.mem_of_getElem? hbyte)
  exact ⟨c, hc, by rw [← ofByte?_of_mem_utf8EncodeChar hmem, hbrace]⟩

/-! ## The next brace -/

theorem at?_of_size_le {bytes : ByteArray} {i : Nat} (h : bytes.size ≤ i) :
    at? bytes i = none := by
  unfold at?
  rw [getElem?_neg bytes i (Nat.not_lt.mpr h)]
  rfl

theorem next?_of_at?_some {bytes : ByteArray} {i : Nat} {brace : Brace}
    (h : at? bytes i = some brace) : next? bytes i = some (i, brace) := by
  unfold at? at h
  obtain ⟨byte, hbyte, hbrace⟩ := Option.bind_eq_some_iff.mp h
  obtain ⟨hi, hget⟩ := getElem?_eq_some_iff.mp hbyte
  rw [next?, dif_pos hi, hget, hbrace]

theorem next?_of_at?_none {bytes : ByteArray} {i : Nat} (h : at? bytes i = none) :
    next? bytes i = if i < bytes.size then next? bytes (i + 1) else none := by
  rw [next?]
  by_cases hi : i < bytes.size
  · unfold at? at h
    rw [getElem?_pos bytes i hi] at h
    have hnone : ofByte? bytes[i] = none := h
    rw [dif_pos hi, if_pos hi, hnone]
  · rw [dif_neg hi, if_neg hi]

/-- The search goes on over places without braces. -/
theorem next?_eq_next? {bytes : ByteArray} {i : Nat} (n : Nat) (hsize : i + n ≤ bytes.size)
    (h : ∀ k, i ≤ k → k < i + n → at? bytes k = none) : next? bytes i = next? bytes (i + n) := by
  induction n generalizing i with
  | zero => rfl
  | succ n ih =>
    rw [next?_of_at?_none (h i (Nat.le_refl i) (by omega)), if_pos (by omega),
      ih (by omega) (fun k hk hkn => h k (by omega) (by omega)), Nat.add_right_comm, Nat.add_assoc]

/-- Behind a split, the search goes over a name to what stands behind the name. -/
theorem next?_width {front name back : List Char} (hname : ∀ c ∈ name, isBrace c = false) :
    next? (front ++ name ++ back).utf8Encode (width front) =
      next? (front ++ name ++ back).utf8Encode (width (front ++ name)) := by
  rw [width_append]
  refine next?_eq_next? (width name) ?_ ?_
  · rw [size_utf8Encode, width_append, width_append]
    omega
  · intro k hk hkn
    cases hat : at? (front ++ name ++ back).utf8Encode k with
    | none => rfl
    | some brace =>
      obtain ⟨c, hc, hbrace⟩ := exists_ofChar?_of_at? hk (by rw [width_append]; exact hkn) hat
      rw [ofChar?_eq_none_iff.mpr (hname c hc)] at hbrace
      exact absurd hbrace (by simp)

/-- Behind a name stands the brace that ends it. -/
theorem next?_width_cons {front name back : List Char} {c : Char} {brace : Brace}
    (hname : ∀ d ∈ name, isBrace d = false) (hc : ofChar? c = some brace) :
    next? (front ++ name ++ c :: back).utf8Encode (width front) =
      some (width (front ++ name), brace) := by
  rw [next?_width hname]
  exact next?_of_at?_some (by rw [at?_width, hc])

/-- Behind a name that ends the text there is no brace. -/
theorem next?_width_nil {front name : List Char} (hname : ∀ d ∈ name, isBrace d = false) :
    next? (front ++ name).utf8Encode (width front) = none := by
  have hleap : next? (front ++ name ++ []).utf8Encode (width front) = _ := next?_width hname
  rw [List.append_nil] at hleap
  have hend : (front ++ name).utf8Encode.size = width (front ++ name) := size_utf8Encode _
  rw [hleap, next?_of_at?_none (at?_of_size_le (Nat.le_of_eq hend)), if_neg (by omega)]

end Brace

namespace Cursor

/-! ## Leaps of the cursor -/

theorem step_of_at?_ne {bytes : ByteArray} {c : Cursor}
    (h : Brace.at? bytes c.pos ≠ some .opening) : c.step bytes = c.skipTo (c.pos + 1) := by
  unfold step
  split
  · next hat => exact absurd hat h
  · rfl

/-- A run goes over places where no placeholder opens. -/
theorem run_eq_run_skipTo {bytes : ByteArray} {c : Cursor} (n : Nat)
    (hsize : c.pos + n ≤ bytes.size)
    (h : ∀ k, c.pos ≤ k → k < c.pos + n → Brace.at? bytes k ≠ some .opening) :
    c.run bytes = (c.skipTo (c.pos + n)).run bytes := by
  induction n generalizing c with
  | zero => rfl
  | succ n ih =>
    rw [run, if_pos (by omega), step_of_at?_ne (h c.pos (Nat.le_refl _) (by omega))]
    have hrest := ih (c := c.skipTo (c.pos + 1)) (by simp only [skipTo]; omega)
      (fun k hk hkn =>
        h k (by simp only [skipTo] at hk; omega) (by simp only [skipTo] at hkn; omega))
    rw [hrest]
    simp only [skipTo]
    rw [Nat.add_right_comm, Nat.add_assoc]

/-- A run goes over a character that opens no placeholder. -/
theorem run_eq_run_skipTo_width {front back : List Char} {d : Char} (hd : d ≠ '{') {c : Cursor}
    (hpos : c.pos = width front) :
    c.run (front ++ d :: back).utf8Encode =
      (c.skipTo (width front + d.utf8Size)).run (front ++ d :: back).utf8Encode := by
  have hsplit : front ++ d :: back = front ++ [d] ++ back := by simp
  have hd' : width (front ++ [d]) = width front + d.utf8Size := by simp
  rw [← hpos]
  refine run_eq_run_skipTo d.utf8Size ?_ ?_
  · rw [hpos, ← hd', hsplit, size_utf8Encode, width_append (front ++ [d])]
    exact Nat.le_add_right _ _
  · intro k hk hkd hat
    rw [hpos] at hk hkd
    rw [hsplit] at hat
    obtain ⟨e, he, hbrace⟩ := Brace.exists_ofChar?_of_at? hk (by omega) hat
    rw [List.mem_singleton] at he
    exact hd (he ▸ Brace.eq_of_ofChar?_eq_opening hbrace)

/-! ## Moves at an opening brace -/

section Opening

variable {front name back : List Char} {c : Cursor}

/-- At an opening brace the next move hangs on the brace that comes next. -/
theorem step_of_opening {bytes : ByteArray} (h : Brace.at? bytes c.pos = some .opening) :
    c.step bytes =
      match Brace.next? bytes (c.pos + 1) with
      | some (close, .closing) => if c.pos + 1 < close then c.take close else c.skipTo (c.pos + 1)
      | some (inner, .opening) => c.skipTo inner
      | none => c.skipTo (c.pos + 1) := by
  unfold step
  split
  · rfl
  · next hat => exact absurd h hat

theorem at?_pos (hpos : c.pos = width front) (rest : List Char) :
    Brace.at? (front ++ '{' :: rest).utf8Encode c.pos = some .opening := by
  rw [hpos, Brace.at?_width]
  rfl

theorem run_eq_run_step (hpos : c.pos = width front) (rest : List Char) :
    c.run (front ++ '{' :: rest).utf8Encode =
      (c.step (front ++ '{' :: rest).utf8Encode).run (front ++ '{' :: rest).utf8Encode := by
  have hlt : c.pos < (front ++ '{' :: rest).utf8Encode.size := by
    rw [hpos, size_utf8Encode, width_append, width_cons, utf8Size_opening]
    omega
  rw [run, if_pos hlt]

/-- Behind an opening brace and a name stands the brace that ends the name. -/
theorem next?_pos {d : Char} {brace : Brace} (hname : ∀ d ∈ name, isBrace d = false)
    (hd : Brace.ofChar? d = some brace) (hpos : c.pos = width front) :
    Brace.next? (front ++ '{' :: (name ++ d :: back)).utf8Encode (c.pos + 1) =
      some (width front + 1 + width name, brace) := by
  have hopen : c.pos + 1 = width (front ++ ['{']) := by rw [hpos, width_append_opening]
  have hsplit : front ++ '{' :: (name ++ d :: back) = front ++ ['{'] ++ name ++ d :: back := by
    simp
  rw [hopen, hsplit, Brace.next?_width_cons hname hd, width_append, ← hopen, hpos]

/-- A name between an opening and a closing brace is taken. -/
theorem step_eq_take (hname : ∀ d ∈ name, isBrace d = false) (hne : name ≠ [])
    (hpos : c.pos = width front) :
    c.step (front ++ '{' :: (name ++ '}' :: back)).utf8Encode =
      c.take (width front + 1 + width name) := by
  have hwidth := width_pos hne
  rw [step_of_opening (at?_pos hpos _), next?_pos hname (rfl : Brace.ofChar? '}' = _) hpos]
  exact if_pos (by omega)

/-- Between braces that hold nothing there is nothing to take. -/
theorem step_eq_skipTo_of_empty (hpos : c.pos = width front) :
    c.step (front ++ '{' :: '}' :: back).utf8Encode = c.skipTo (c.pos + 1) := by
  have hnext : Brace.next? (front ++ '{' :: '}' :: back).utf8Encode (c.pos + 1) =
      some (width front + 1 + width [], .closing) :=
    next?_pos (List.forall_mem_nil _) rfl hpos
  rw [step_of_opening (at?_pos hpos _), hnext]
  exact if_neg (by rw [width_nil]; omega)

/-- An opening brace behind the name sends the cursor there. -/
theorem step_eq_skipTo_of_opening (hname : ∀ d ∈ name, isBrace d = false)
    (hpos : c.pos = width front) :
    c.step (front ++ '{' :: (name ++ '{' :: back)).utf8Encode =
      c.skipTo (width front + 1 + width name) := by
  rw [step_of_opening (at?_pos hpos _), next?_pos hname (rfl : Brace.ofChar? '{' = _) hpos]

/-- A name that no brace ends is none. -/
theorem step_eq_skipTo_of_unclosed (hname : ∀ d ∈ name, isBrace d = false)
    (hpos : c.pos = width front) :
    c.step (front ++ '{' :: name).utf8Encode = c.skipTo (c.pos + 1) := by
  have hopen : c.pos + 1 = width (front ++ ['{']) := by rw [hpos, width_append_opening]
  have hsplit : front ++ '{' :: name = front ++ ['{'] ++ name := by simp
  rw [step_of_opening (at?_pos hpos _), hopen, hsplit, Brace.next?_width_nil hname]

end Opening

end Cursor

end PathTemplate
