/-
Binary floating point numbers of 64 bits.

A finite number is a sign and a significand of at most 53 bits times a power
of two; the significand has all its 53 bits unless the exponent is the least
one. A decimal that is read becomes the nearest number there is, of two that
are equally near the one with the even significand, and a decimal too large
for all of them is infinite. All of it is arithmetic of natural numbers.
-/
namespace PathResolution

inductive Binary64 where
  /-- The significand times two to the exponent. -/
  | finite (negative : Bool) (significand : Nat) (exponent : Int)
  | infinite (negative : Bool)
  | notANumber
  deriving DecidableEq, Repr

namespace Binary64

-- ================================================================ format

/-- The least significand that has all its bits. -/
def fullSignificand : Nat := Nat.pow 2 52

def leastExponent : Int := -1074

def greatestExponent : Int := 971

-- =============================================================== rounding

/-- The whole number nearest to a quotient, the even one of two that are
equally near. -/
def nearest (numerator denominator : Nat) : Nat :=
  let whole := numerator / denominator
  let rest := 2 * (numerator % denominator)
  if rest < denominator ∨ (rest = denominator ∧ whole % 2 = 0) then whole else whole + 1

/-- A quotient over a power of two, as a numerator and a denominator. -/
def scaled (numerator denominator : Nat) (exponent : Int) : Nat × Nat :=
  if 0 ≤ exponent then (numerator, denominator * Nat.pow 2 exponent.toNat)
  else (numerator * Nat.pow 2 (-exponent).toNat, denominator)

/-- The exponent with which a positive quotient is written: the significand is
full, if the exponent can be as small as that asks for. -/
def exponentOf (numerator denominator : Nat) : Int :=
  let estimate := max leastExponent ((numerator.log2 : Int) - denominator.log2 - 52)
  let (n, d) := scaled numerator denominator estimate
  if n / d < fullSignificand then max leastExponent (estimate - 1) else estimate

/-- The number nearest to a positive quotient. -/
def ofQuotient (negative : Bool) (numerator denominator : Nat) : Binary64 :=
  let exponent := exponentOf numerator denominator
  let (n, d) := scaled numerator denominator exponent
  let significand := nearest n d
  let (significand, exponent) :=
    if significand = 2 * fullSignificand then (fullSignificand, exponent + 1)
    else (significand, exponent)
  if greatestExponent < exponent then .infinite negative
  else .finite negative significand exponent

def zero (negative : Bool) : Binary64 := .finite negative 0 leastExponent

/-- The number nearest to `digits` times ten to the exponent. What lies beyond
ten to the 310th is infinite, and what lies below ten to the -330th is
zero, without a look at the powers. -/
def ofDecimal (negative : Bool) (digits : Nat) (exponent : Int) : Binary64 :=
  let places := (Nat.toDigits 10 digits).length
  if digits = 0 ∨ exponent + places < -330 then zero negative
  else if 310 < exponent + places then .infinite negative
  else if 0 ≤ exponent then ofQuotient negative (digits * Nat.pow 10 exponent.toNat) 1
  else ofQuotient negative digits (Nat.pow 10 (-exponent).toNat)

end Binary64

end PathResolution
