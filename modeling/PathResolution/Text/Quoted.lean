/-
Texts between quotation marks, as messages show them.

A quoted text stands between apostrophes, or between double quotes if it
holds an apostrophe and no double quote. The mark around it, the backslash
and the three common controls are written after a backslash, and every other
code point that is not printable as its number in hexadecimal.
-/
import PathResolution.Text.Printable

namespace PathResolution

def quotationMark (t : Text) : CodePoint :=
  if t.contains 0x27 && !t.contains 0x22 then 0x22 else 0x27

/-- A code point by its number, in the shortest of three widths. -/
def numbered (c : CodePoint) : Text :=
  if c.val < 0x100 then text "\\x" ++ hexadecimal 2 c.val
  else if c.val < 0x10000 then text "\\u" ++ hexadecimal 4 c.val
  else text "\\U" ++ hexadecimal 8 c.val

/-- A code point as it stands inside a quoted text. -/
def escaped (mark c : CodePoint) : Text :=
  if c = mark ∨ c = 0x5C then [0x5C, c]
  else if c = 0x09 then text "\\t"
  else if c = 0x0A then text "\\n"
  else if c = 0x0D then text "\\r"
  else if c.isPrintable then [c]
  else numbered c

def quoted (t : Text) : Text :=
  let mark := quotationMark t
  mark :: t.flatMap (escaped mark) ++ [mark]

/-- The quoted form of a string of bytes: the letter b, and every byte beyond
ASCII as its number. -/
def quotedBytes (bytes : List UInt8) : Text :=
  let t : Text := bytes.map fun b => CodePoint.ofNat b.toNat
  let mark := quotationMark t
  0x62 :: mark :: t.flatMap (fun c => if c.val < 0x80 then escaped mark c else numbered c) ++ [mark]

end PathResolution
