/-
The shortest decimal of a number, and how it is written.

A decimal stands for a number if no other number is nearer to it. Of the
decimals that stand for a number, one with the fewest digits is written, and
of several such the one nearest to the number itself. On a grid of decimals
it is enough to look at the two neighbours of the number: if any point of the
grid stands for it, one of the two does.
-/
import PathResolution.Binary64.Basic
import PathResolution.Text.Basic

namespace PathResolution.Binary64

-- ============================================================== decimals

/-- The decimal `digits` times ten to the exponent. -/
structure Decimal where
  digits : Nat
  exponent : Int
  deriving DecidableEq, Repr

/-- A multiple of two to `p` beside a multiple of ten to `q`, both as whole
numbers of one unit. -/
def aligned (a : Nat) (p : Int) (b : Nat) (q : Int) : Nat × Nat :=
  (a * Nat.pow 2 p.toNat * Nat.pow 10 (-q).toNat, b * Nat.pow 10 q.toNat * Nat.pow 2 (-p).toNat)

/-- Whether a decimal stands for a positive number: it lies between the middles
to the two neighbours of the number, or on one of them if the significand is
even. The neighbour below a power of two is half as far as the one above. -/
def standsFor (significand : Nat) (exponent : Int) (d : Decimal) : Bool :=
  let gap := if significand = fullSignificand ∧ leastExponent < exponent then 1 else 2
  let (low, fromLow) := aligned (4 * significand - gap) (exponent - 2) d.digits d.exponent
  let (high, fromHigh) := aligned (4 * significand + 2) (exponent - 2) d.digits d.exponent
  if significand % 2 = 0 then decide (low ≤ fromLow) && decide (fromHigh ≤ high)
  else decide (low < fromLow) && decide (fromHigh < high)

/-- How often ten to `place` goes into a positive number. -/
def floorAt (significand : Nat) (exponent place : Int) : Nat :=
  let (number, unit) := aligned significand exponent 1 place
  number / unit

/-- The number of digits before the point; for a number below a tenth, less the
zeros behind the point. No positive number is smaller than ten to the
-324th. -/
def magnitude (significand : Nat) (exponent : Int) : Int :=
  (Nat.toDigits 10 (floorAt significand exponent (-324))).length - 324

/-- The neighbour on a grid that stands for a positive number, the nearer one
if both do, and of two that are equally near the even one. -/
def neighbour? (significand : Nat) (exponent place : Int) : Option Decimal :=
  let floor := floorAt significand exponent place
  let below : Decimal := ⟨floor, place⟩
  let above : Decimal := ⟨floor + 1, place⟩
  let (twice, middle) := aligned (2 * significand) exponent (2 * floor + 1) place
  let preferBelow := decide (twice < middle) || (twice == middle && floor % 2 == 0)
  match standsFor significand exponent below, standsFor significand exponent above with
  | true, true => some (if preferBelow then below else above)
  | true, false => some below
  | false, true => some above
  | false, false => none

def mostDigits : Nat := 17

/-- The shortest decimal that stands for a positive number. -/
def shortest (significand : Nat) (exponent : Int) : Decimal :=
  let top := magnitude significand exponent
  let places := (List.range mostDigits).map fun n => top - (n + 1 : Nat)
  (places.findSome? (neighbour? significand exponent)).getD
    ⟨floorAt significand exponent (top - mostDigits), top - mostDigits⟩

-- =============================================================== writing

def zeros (n : Nat) : Text := List.replicate n 0x30

/-- Digits with a point after the first `point` of them, and a digit on each
side of it. -/
def positional (digits : Text) (point : Int) : Text :=
  if point ≤ 0 then text "0." ++ zeros (-point).toNat ++ digits
  else
    let whole := digits.take point.toNat
    let rest := digits.drop point.toNat
    whole ++ zeros (point.toNat - digits.length) ++ 0x2E :: (if rest.isEmpty then zeros 1 else rest)

/-- Digits with a point after the first of them, if there are more, and the
power of ten with its sign and at least two digits. -/
def scientific (digits : Text) (power : Int) : Text :=
  let size := decimalNat power.natAbs
  digits.take 1 ++ (if digits.length ≤ 1 then [] else 0x2E :: digits.drop 1)
    ++ 0x65 :: (if power < 0 then 0x2D else 0x2B) :: zeros (2 - size.length) ++ size

/-- A decimal that is not zero, with its point in place if that is no more than
three zeros behind the point or sixteen digits before it. -/
def Decimal.shown (d : Decimal) : Text :=
  let all := decimalNat d.digits
  let digits := (all.reverse.dropWhile (· == 0x30)).reverse
  let point := all.length + d.exponent
  if -4 < point ∧ point ≤ 16 then positional digits point else scientific digits (point - 1)

def sign (negative : Bool) : Text := if negative then [0x2D] else []

def shown : Binary64 → Text
  | .notANumber => text "nan"
  | .infinite negative => sign negative ++ text "inf"
  | .finite negative 0 _ => sign negative ++ text "0.0"
  | .finite negative significand exponent =>
    sign negative ++ (shortest significand exponent).shown

end PathResolution.Binary64
