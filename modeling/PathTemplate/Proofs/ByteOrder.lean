import Mathlib.Algebra.Group.Nat.Defs
import Mathlib.Tactic.SplitIfs

/-!
# Texts in the order of their bytes

Texts are compared character by character.  This is the order of their UTF-8 bytes as well, for a
character is written as the digits of its number to base 64, the most significant first, and the
first byte is marked with how many follow (`utf8EncodeChar_eq`).  Of two characters the greater one
has at least as many bytes.  With more bytes its first one is greater (`firstByte_lt`); with as many
its digits are, from the first place on where they differ, and what stands behind the two characters
does not matter any more (`utf8EncodeChar_append_lt`).

> `compare_eq_lt_iff`: a text comes before another exactly if its bytes do.
-/

namespace PathTemplate.Text

/-- The bytes of a text. -/
def bytes (text : String) : List UInt8 := text.toByteArray.data.toList

theorem bytes_eq_flatMap (text : String) :
    bytes text = text.toList.flatMap String.utf8EncodeChar := by
  unfold bytes
  conv => lhs; rw [← String.ofList_toList (s := text)]
  rw [String.toByteArray_ofList, List.utf8Encode, List.data_toByteArray]

/-! ## One character -/

/-- How many bytes follow the first one in a character with this number. -/
def following (number : Nat) : Nat :=
  if number ≤ 0x7f then 0 else if number ≤ 0x7ff then 1 else if number ≤ 0xffff then 2 else 3

/-- What is added to the first byte to tell how many follow. -/
def mark : Nat → Nat
  | 0 => 0
  | 1 => 0xc0
  | 2 => 0xe0
  | _ => 0xf0

/-- The first byte: the leading digit and the mark. -/
def firstByte (number : Nat) : Nat := number / 64 ^ following number + mark (following number)

/-- The bytes that hold the last `count` digits. -/
def continuation : Nat → Nat → List UInt8
  | 0, _ => []
  | count + 1, number => UInt8.ofNat (number / 64 ^ count % 64 + 0x80) :: continuation count number

theorem toNat_lt (c : Char) : c.toNat < 0x110000 := by
  rcases c.valid with h | h
  · exact Nat.lt_trans h (by decide)
  · exact h.2

/-- A character is written as its digits. -/
theorem utf8EncodeChar_eq (c : Char) :
    String.utf8EncodeChar c =
      UInt8.ofNat (firstByte c.toNat) :: continuation (following c.toNat) c.toNat := by
  have hmax := toNat_lt c
  unfold String.utf8EncodeChar firstByte following
  simp only [Char.toNat_val]
  -- the leading digit is never greater than what the mark leaves room for
  split_ifs
  · simp [continuation, mark]
  · rw [Nat.mod_eq_of_lt (by omega)]
    simp [continuation, mark]
  · rw [Nat.mod_eq_of_lt (a := c.toNat / 4096) (by omega)]
    simp [continuation, mark]
  · rw [Nat.mod_eq_of_lt (a := c.toNat / 262144) (by omega)]
    simp [continuation, mark]

/-- A greater character has at least as many bytes. -/
theorem following_le {m n : Nat} (h : m ≤ n) : following m ≤ following n := by
  unfold following
  split_ifs <;> omega

theorem firstByte_lt_size (c : Char) : firstByte c.toNat < UInt8.size := by
  have hmax := toNat_lt c
  unfold firstByte following
  split_ifs <;> simp only [mark, UInt8.size] <;> omega

/-- A character with more bytes begins with a greater one. -/
theorem firstByte_lt {c d : Char} (h : following c.toNat < following d.toNat) :
    firstByte c.toNat < firstByte d.toNat := by
  have hc := toNat_lt c
  have hd := toNat_lt d
  unfold firstByte
  unfold following at h ⊢
  split_ifs at h ⊢ <;> simp only [mark] <;> omega

theorem ofNat_lt_ofNat {m n : Nat} (h : m < n) (hn : n < UInt8.size) :
    UInt8.ofNat m < UInt8.ofNat n := by
  rw [UInt8.lt_iff_toNat_lt, UInt8.toNat_ofNat', UInt8.toNat_ofNat', Nat.mod_eq_of_lt hn,
    Nat.mod_eq_of_lt (Nat.lt_trans h hn)]
  exact h

/-- Numbers that agree up to the last digits are ordered by the last digits. -/
theorem continuation_append_lt {m n count : Nat} (h : m < n)
    (hfront : m / 64 ^ count = n / 64 ^ count) (x y : List UInt8) :
    continuation count m ++ x < continuation count n ++ y := by
  induction count with
  | zero =>
    rw [Nat.pow_zero, Nat.div_one, Nat.div_one] at hfront
    omega
  | succ count ih =>
    rw [Nat.pow_succ, ← Nat.div_div_eq_div_mul, ← Nat.div_div_eq_div_mul] at hfront
    rw [continuation, continuation, List.cons_append, List.cons_append, List.cons_lt_cons_iff]
    have hle : m / 64 ^ count ≤ n / 64 ^ count := Nat.div_le_div_right (Nat.le_of_lt h)
    rcases Nat.lt_or_eq_of_le hle with hlt | heq
    · exact .inl (ofNat_lt_ofNat (by omega) (by simp only [UInt8.size]; omega))
    · exact .inr ⟨by rw [heq], ih heq⟩

/-- A greater character has greater bytes, whatever stands behind the two. -/
theorem utf8EncodeChar_append_lt {c d : Char} (h : c < d) (x y : List UInt8) :
    String.utf8EncodeChar c ++ x < String.utf8EncodeChar d ++ y := by
  have hnumber : c.toNat < d.toNat := h
  rw [utf8EncodeChar_eq, utf8EncodeChar_eq, List.cons_append, List.cons_append,
    List.cons_lt_cons_iff]
  rcases Nat.lt_or_eq_of_le (following_le (Nat.le_of_lt hnumber)) with hmore | hsame
  · exact .inl (ofNat_lt_ofNat (firstByte_lt hmore) (firstByte_lt_size d))
  · have hle : c.toNat / 64 ^ following d.toNat ≤ d.toNat / 64 ^ following d.toNat :=
      Nat.div_le_div_right (Nat.le_of_lt hnumber)
    rcases Nat.lt_or_eq_of_le hle with hlt | heq
    · have hfirst : firstByte c.toNat < firstByte d.toNat := by
        unfold firstByte
        rw [hsame]
        omega
      exact .inl (ofNat_lt_ofNat hfirst (firstByte_lt_size d))
    · have hfirst : firstByte c.toNat = firstByte d.toNat := by
        unfold firstByte
        rw [hsame, heq]
      rw [hfirst, hsame]
      exact .inr ⟨rfl, continuation_append_lt hnumber heq x y⟩

/-! ## Whole texts -/

theorem flatMap_utf8EncodeChar_lt {front back : List Char} (h : front < back) :
    front.flatMap String.utf8EncodeChar < back.flatMap String.utf8EncodeChar := by
  induction h with
  | @nil c back =>
    rw [List.flatMap_nil, List.flatMap_cons, utf8EncodeChar_eq]
    exact List.Lex.nil
  | @cons c front back _ ih =>
    rw [List.flatMap_cons, List.flatMap_cons]
    exact List.append_left_lt ih
  | @rel c d front back h =>
    rw [List.flatMap_cons, List.flatMap_cons]
    exact utf8EncodeChar_append_lt h _ _

theorem bytes_lt_of_compare {text other : String} (h : compare text other = .lt) :
    bytes text < bytes other := by
  rw [bytes_eq_flatMap, bytes_eq_flatMap]
  exact flatMap_utf8EncodeChar_lt (String.lt_iff.mp (compareOfLessAndEq_eq_lt.mp h))

/-- A text comes before another exactly if its bytes do. -/
theorem compare_eq_lt_iff {text other : String} :
    compare text other = .lt ↔ bytes text < bytes other := by
  refine ⟨bytes_lt_of_compare, ?_⟩
  intro h
  cases hcompare : compare text other with
  | lt => rfl
  | eq =>
    rw [Std.LawfulEqOrd.eq_of_compare hcompare] at h
    exact absurd h (List.lt_irrefl _)
  | gt =>
    have hlt := bytes_lt_of_compare (Std.OrientedCmp.gt_iff_lt.mp hcompare)
    exact absurd h (List.lt_asymm hlt)

/-- Nothing comes before the empty text. -/
theorem isLE_compare_empty (text : String) : (compare "" text).isLE = true := by
  cases hcompare : compare "" text with
  | lt => rfl
  | eq => rfl
  | gt =>
    have hlt := bytes_lt_of_compare (Std.OrientedCmp.gt_iff_lt.mp hcompare)
    exact absurd hlt (List.not_lt_nil _)

end PathTemplate.Text
