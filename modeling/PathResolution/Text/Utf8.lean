/-
UTF-8 that loses no byte.

A byte that is no part of a valid sequence is carried as the surrogate
0xDC00 + byte, and writing turns such a surrogate back into its byte, so
reading and then writing gives back any bytes whatever. The remaining
surrogates have no bytes at all.
-/
import PathResolution.Text.Basic

namespace PathResolution

-- =============================================================== writing

/-- Where a text has no bytes: the code point at fault, its position, and the
end of the run of surrogates that it stands in. -/
structure Unencodable where
  codePoint : CodePoint
  start : Nat
  stop : Nat
  deriving DecidableEq, Repr

/-- The bytes of a code point, or none for a surrogate that carries no
byte. -/
def CodePoint.utf8? (c : CodePoint) : Option (List UInt8) :=
  let n := c.val
  if n < 0x80 then some [UInt8.ofNat n]
  else if n < 0x800 then
    some [UInt8.ofNat (0xC0 + n / 0x40), UInt8.ofNat (0x80 + n % 0x40)]
  else if 0xDC80 ≤ n ∧ n ≤ 0xDCFF then some [UInt8.ofNat (n - 0xDC00)]
  else if c.isSurrogate then none
  else if n < 0x10000 then
    some [UInt8.ofNat (0xE0 + n / 0x1000), UInt8.ofNat (0x80 + n / 0x40 % 0x40),
      UInt8.ofNat (0x80 + n % 0x40)]
  else
    some [UInt8.ofNat (0xF0 + n / 0x40000), UInt8.ofNat (0x80 + n / 0x1000 % 0x40),
      UInt8.ofNat (0x80 + n / 0x40 % 0x40), UInt8.ofNat (0x80 + n % 0x40)]

/-- The bytes of a text that starts at the given position of a longer one. -/
def utf8From (position : Nat) : Text → Except Unencodable (List UInt8)
  | [] => .ok []
  | c :: rest =>
    match c.utf8? with
    | some bytes => (utf8From (position + 1) rest).map (bytes ++ ·)
    | none =>
      .error ⟨c, position, position + ((c :: rest).takeWhile CodePoint.isSurrogate).length⟩

def utf8 (t : Text) : Except Unencodable (List UInt8) := utf8From 0 t

-- =============================================================== reading

/-- The six low bits of a continuation byte. -/
def continuation? (b : UInt8) : Option Nat :=
  if 0x80 ≤ b.toNat ∧ b.toNat < 0xC0 then some (b.toNat - 0x80) else none

/-- The character that valid UTF-8 starts with, and the number of bytes of it
after the first. Longer forms than needed, surrogates and numbers past the
last code point are not valid. -/
def leading? : List UInt8 → Option (CodePoint × Nat)
  | [] => none
  | b :: rest =>
    let lead := b.toNat
    if lead < 0x80 then some (CodePoint.ofNat lead, 0)
    else if lead < 0xC0 then none
    else if lead < 0xE0 then
      match rest with
      | b₁ :: _ => do
        let n := 0x40 * (lead - 0xC0) + (← continuation? b₁)
        if 0x80 ≤ n then some (CodePoint.ofNat n, 1) else none
      | _ => none
    else if lead < 0xF0 then
      match rest with
      | b₁ :: b₂ :: _ => do
        let n := 0x1000 * (lead - 0xE0) + 0x40 * (← continuation? b₁) + (← continuation? b₂)
        if 0x800 ≤ n ∧ ¬(0xD800 ≤ n ∧ n ≤ 0xDFFF) then some (CodePoint.ofNat n, 2) else none
      | _ => none
    else if lead < 0xF8 then
      match rest with
      | b₁ :: b₂ :: b₃ :: _ => do
        let n := 0x40000 * (lead - 0xF0) + 0x1000 * (← continuation? b₁)
          + 0x40 * (← continuation? b₂) + (← continuation? b₃)
        if 0x10000 ≤ n ∧ n ≤ 0x10FFFF then some (CodePoint.ofNat n, 3) else none
      | _ => none
    else none

/-- The text of bytes of which the first few belong to a character already
read. -/
def ofUtf8After : Nat → List UInt8 → Text
  | _, [] => []
  | skip + 1, _ :: rest => ofUtf8After skip rest
  | 0, b :: rest =>
    match leading? (b :: rest) with
    | some (c, more) => c :: ofUtf8After more rest
    | none => CodePoint.ofNat (0xDC00 + b.toNat) :: ofUtf8After 0 rest

def ofUtf8 (bytes : List UInt8) : Text := ofUtf8After 0 bytes

end PathResolution
