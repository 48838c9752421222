/-
Integers written as text.

A numeral is an optional sign and decimal digits of any script, with single
underscores allowed between two digits and blanks around the whole. A numeral
of more than 4300 digits is refused, leading zeros counted.
-/
import PathResolution.Text.Blank
import PathResolution.Text.Digit

namespace PathResolution

/-- The most digits a numeral may have. -/
def maxNumeralDigits : Nat := 4300

/-- The values of a run of digits, most significant first. There is at least
one digit, and an underscore stands only between two of them. -/
def digitValues? : Text → Option (List Nat)
  | [] => none
  | [c] => c.digit?.map fun d => [d]
  | c :: u :: rest => do
    let d ← c.digit?
    let ds ← if u = 0x5F then digitValues? rest else digitValues? (u :: rest)
    pure (d :: ds)

def ofDigits (ds : List Nat) : Nat := ds.foldl (fun n d => 10 * n + d) 0

def natural? (t : Text) : Option Nat := do
  let ds ← digitValues? t
  if ds.length ≤ maxNumeralDigits then some (ofDigits ds) else none

/-- The number written by a numeral without blanks around it. -/
def signedNatural? : Text → Option Int
  | [] => none
  | c :: rest =>
    if c = 0x2D then (natural? rest).map fun n => -(n : Int)
    else if c = 0x2B then (natural? rest).map Int.ofNat
    else (natural? (c :: rest)).map Int.ofNat

def integer? (t : Text) : Option Int := signedNatural? (trimBlanks t)

end PathResolution
