/-
White space around a number.

In the ASCII range only the tab, the four line controls and the space are
blank; beyond it, every white space code point of Unicode is. The four
information separators U+001C to U+001F are not blank here.
-/
import PathResolution.Text.Basic

namespace PathResolution

/-- Closed ranges, ascending and apart. -/
def blankRanges : List (Nat × Nat) :=
  [(0x09, 0x0D), (0x20, 0x20), (0x85, 0x85), (0xA0, 0xA0), (0x1680, 0x1680),
   (0x2000, 0x200A), (0x2028, 0x2029), (0x202F, 0x202F), (0x205F, 0x205F), (0x3000, 0x3000)]

/-- Whether a number may be surrounded by this code point. -/
def CodePoint.isBlank (c : CodePoint) : Bool := inRanges blankRanges c.val

/-- The text without the blanks at its two ends. -/
def trimBlanks (t : Text) : Text :=
  ((t.dropWhile CodePoint.isBlank).reverse.dropWhile CodePoint.isBlank).reverse

end PathResolution
