import PathTemplate.Text.DefaultIgnorable
import PathTemplate.Text.GraphemeExtend
import PathTemplate.Text.Unprintable

/-!
# Quoted text

Text between double quotes, so written that it can be read on one line: a quote and a backslash get
a backslash before them, the usual control characters have letters, and every other character that
cannot be seen for itself is written by its number.
-/

namespace PathTemplate.Text

/-- Tells whether a character can be seen for itself: it does not merge into the one before it,
leaves a mark, and is not passed over. -/
def isVisible (c : Char) : Bool :=
  if c.toNat < 0x7f then 0x20 ≤ c.toNat
  else
    !RangeTable.graphemeExtend.contains c && !RangeTable.unprintable.contains c
      && !RangeTable.defaultIgnorable.contains c

/-- A character by its number, in hexadecimal. -/
def numbered (c : Char) : String :=
  "\\u\x7b" ++ String.ofList (Nat.toDigits 16 c.toNat) ++ "\x7d"

/-- A character as it stands in quoted text. -/
def escaped (c : Char) : String :=
  match c with
  | '"' => "\\\""
  | '\\' => "\\\\"
  | '\t' => "\\t"
  | '\n' => "\\n"
  | '\r' => "\\r"
  | '\x00' => "\\0"
  | c => if isVisible c then c.toString else numbered c

/-- Text between double quotes. -/
def quoted (text : String) : String :=
  text.foldl (fun written c => written ++ escaped c) "\"" ++ "\""

/-- Quoted texts between square brackets. -/
def quotedList (texts : List String) : String :=
  "[" ++ ", ".intercalate (texts.map quoted) ++ "]"

end PathTemplate.Text
