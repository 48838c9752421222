/-
The streams that the programs here write to.

The output carries no sequences that colour a screen, unless it is one, and the
error stream no controls that ring a bell or move a cursor. The output takes
characters only, so it takes no text with a surrogate in it; the error stream
takes everything.
-/
import PathResolution.Fault

namespace PathResolution.CommandLine

def isLetter (c : CodePoint) : Bool :=
  (decide (0x41 ≤ c.val) && decide (c.val ≤ 0x5A))
    || (decide (0x61 ≤ c.val) && decide (c.val ≤ 0x7A))

/-- Whether a code point can stand in the middle of a colouring sequence. -/
def isParameter (c : CodePoint) : Bool :=
  c == 0x3B || c == 0x3F || (decide (0x30 ≤ c.val) && decide (c.val ≤ 0x39))

/-- How much of a text is a colouring sequence: an escape, a bracket,
parameters and a letter. -/
def colouringLength : Text → Nat
  | c :: d :: rest =>
    let parameters := (rest.takeWhile isParameter).length
    if c = 0x1B ∧ d = 0x5B ∧ ((rest.drop parameters).head?.map isLetter).getD false then
      parameters + 3
    else 0
  | _ => 0

/-- The text without colouring sequences, after one of which `skip` code points
are left to drop. -/
def withoutColouringAfter : (skip : Nat) → Text → Text
  | _, [] => []
  | skip + 1, _ :: rest => withoutColouringAfter skip rest
  | 0, c :: rest =>
    match colouringLength (c :: rest) with
    | 0 => c :: withoutColouringAfter 0 rest
    | more + 1 => withoutColouringAfter more rest

def withoutColouring (t : Text) : Text := withoutColouringAfter 0 t

/-- The text without the bell, the backspace, the vertical tab, the form feed
and the carriage return. -/
def withoutControls (t : Text) : Text :=
  t.filter fun c => !([0x07, 0x08, 0x0B, 0x0C, 0x0D] : List CodePoint).contains c

/-- The first run of surrogates in a text, if there is one. -/
def surrogates? (t : Text) : Option Unencodable :=
  let before := (t.takeWhile fun c => !c.isSurrogate).length
  match t.drop before with
  | [] => none
  | c :: rest => some ⟨c, before, before + ((c :: rest).takeWhile CodePoint.isSurrogate).length⟩

/-- What the output carries of a line. -/
def echoed (isScreen : Bool) (t : Text) : Except Fault Text :=
  let t := if isScreen then t else withoutColouring t
  match surrogates? t with
  | some u => .error (.refused (.unencodable u))
  | none => .ok t

end PathResolution.CommandLine
