/-
Texts that may hold lone surrogates.

A file name is a string of bytes, and a caller sees it as a string of code
points. Bytes that are no part of valid UTF-8 have to survive the way in and
the way out, so a text here is a list of arbitrary code points, the
surrogates included, and not a string of characters.
-/
namespace PathResolution

-- ========================================================== code points

/-- A Unicode code point; the surrogates count, alone or in pairs. -/
abbrev CodePoint := Fin 0x110000

/-- There are code points, so that a numeral can stand for one. -/
instance CodePoint.count_ne_zero : @NeZero Nat Zero.ofOfNat0 0x110000 :=
  ⟨Nat.succ_ne_zero 0x10FFFF⟩

/-- A text is a sequence of code points, well formed as UTF-16 or not. -/
abbrev Text := List CodePoint

def CodePoint.ofChar (c : Char) : CodePoint :=
  ⟨c.toNat, by
    rcases c.valid with h | h
    · exact Nat.lt_trans h (by decide)
    · exact h.2⟩

/-- The code point with this number; numbers past the last one do not occur
in the arithmetic that uses this, and wrap around. -/
def CodePoint.ofNat (n : Nat) : CodePoint := Fin.ofNat 0x110000 n

/-- The 2048 code points that UTF-16 pairs up and that stand for no
character. -/
def CodePoint.isSurrogate (c : CodePoint) : Bool :=
  decide (0xD800 ≤ c.val) && decide (c.val ≤ 0xDFFF)

def text (s : String) : Text := s.toList.map CodePoint.ofChar

/-- The parts of a text between the occurrences of a code point, the empty ones
included: one more than there are occurrences. -/
def partsAt (mark : CodePoint) : Text → List Text
  | [] => [[]]
  | c :: rest =>
    if c = mark then [] :: partsAt mark rest
    else match partsAt mark rest with
      | part :: more => (c :: part) :: more
      | [] => [[c]]

-- ============================================================== numerals

def decimalNat (n : Nat) : Text := (Nat.toDigits 10 n).map CodePoint.ofChar

/-- The decimal digits of an integer, a minus sign in front of a negative
one. -/
def decimal : Int → Text
  | .ofNat n => decimalNat n
  | .negSucc n => 0x2D :: decimalNat (n + 1)

/-- The lower-case hexadecimal digits of a number, at least `width` of
them. -/
def hexadecimal (width n : Nat) : Text :=
  let digits := (Nat.toDigits 16 n).map CodePoint.ofChar
  List.replicate (width - digits.length) 0x30 ++ digits

-- ================================================================ ranges

/-- Whether a number lies in one of a list of closed ranges. -/
def inRanges (ranges : List (Nat × Nat)) (n : Nat) : Bool :=
  ranges.any fun r => decide (r.1 ≤ n) && decide (n ≤ r.2)

end PathResolution
