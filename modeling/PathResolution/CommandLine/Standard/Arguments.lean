/-
The reader of arguments that the programs here run with.

Options and paths may be mixed, up to a double dash, after which everything is
a path. A single dash is a path. One-letter options may share a dash. Of an
option with a value that is given several times the last one counts, and only
that one is looked at.

A count is written with ASCII digits, and single underscores may stand between
them. A plus sign in front, zeros in front, a point and zeros behind, and
blanks around the whole say nothing. A count of more than 4300 digits is
refused, the zeros in front not counted.
-/
import PathResolution.CommandLine.Libraries
import PathResolution.Text.Numeral

namespace PathResolution

-- ================================================================ counts

def CodePoint.isAsciiDigit (c : CodePoint) : Bool := decide (0x30 ≤ c.val) && decide (c.val ≤ 0x39)

/-- The text without the zeros in front of a number, and without underscores
among them. The last code point before a point or before the end stays, so
that zero keeps a digit. -/
def withoutLeadingZeros (t : Text) : Text :=
  if t.head? = some 0x30 then
    let zeros := t.takeWhile fun c => c == 0x30 || c == 0x5F
    let rest := t.drop zeros.length
    if rest.isEmpty || rest.head? == some 0x2E then zeros.getLast?.toList ++ rest else rest
  else t

/-- The text without a point and the zeros behind it, at least one. -/
def withoutZeroFraction (t : Text) : Text :=
  let whole := t.takeWhile (· != 0x2E)
  let zeros := t.drop (whole.length + 1)
  if !zeros.isEmpty && zeros.all (· == 0x30) then whole else t

/-- The count written by a text that starts with a digit. -/
def unsignedCount? (t : Text) : Option Nat :=
  if (t.head?.map CodePoint.isAsciiDigit).getD false then
    let digits := withoutZeroFraction (withoutLeadingZeros t)
    if digits.all (fun c => c.isAsciiDigit || c == 0x5F) then natural? digits else none
  else none

def count? (t : Text) : Option Nat :=
  match trimBlanks t with
  | [] => none
  | c :: rest => unsignedCount? (if c = 0x2B then rest else c :: rest)

namespace CommandLine

-- =============================================================== options

/-- What the arguments come to. -/
inductive Request where
  | invocation (i : Invocation)
  | help
  /-- The arguments make no sense. -/
  | usage
  deriving DecidableEq, Repr

/-- What has been read of the arguments so far. -/
structure Options where
  paths : List Text
  exact : Bool
  quiet : Bool
  verbose : Bool
  help : Bool
  loopBudget : Option Text

def Options.none : Options := ⟨[], false, false, false, false, Option.none⟩

def Options.switch? (o : Options) (letter : CodePoint) : Option Options :=
  if letter = 0x65 then some { o with exact := true }
  else if letter = 0x71 then some { o with quiet := true }
  else if letter = 0x76 then some { o with verbose := true }
  else Option.none

/-- The option that a long name stands for, if it takes no value. -/
def Options.longSwitch? (o : Options) (name : Text) : Option Options :=
  if name = text "--exact" then some { o with exact := true }
  else if name = text "--quiet" then some { o with quiet := true }
  else if name = text "--verbose" then some { o with verbose := true }
  else if name = text "--help" then some { o with help := true }
  else Option.none

/-- What one argument does, without a look at those after it. -/
inductive Step where
  | taken (o : Options)
  /-- The next argument is its value. -/
  | wantsBudget
  /-- All that follow are paths. -/
  | onlyPaths
  | refused

/-- Takes an argument that starts with a dash and is longer than that. -/
def Options.option (o : Options) (argument : Text) : Step :=
  let name := argument.takeWhile (· != 0x3D)
  let value := if name.length = argument.length then Option.none
    else some (argument.drop (name.length + 1))
  if name = text "--loop-budget" then
    match value with
    | some v => .taken { o with loopBudget := some v }
    | Option.none => .wantsBudget
  else match o.longSwitch? name with
    | some switched => if value.isSome then .refused else .taken switched
    | Option.none =>
      if (text "--").isPrefixOf argument then .refused
      else match argument.tail.foldlM Options.switch? o with
        | some switched => .taken switched
        | Option.none => .refused

def Options.step (o : Options) (argument : Text) : Step :=
  if argument = text "--" then .onlyPaths
  else if argument.head? = some 0x2D ∧ 1 < argument.length then o.option argument
  else .taken { o with paths := o.paths ++ [argument] }

def Options.scan : Options → List Text → Option Options
  | o, [] => some o
  | o, argument :: rest =>
    match o.step argument with
    | .taken o' => o'.scan rest
    | .onlyPaths => some { o with paths := o.paths ++ rest }
    | .refused => Option.none
    | .wantsBudget =>
      match rest with
      | [] => Option.none
      | value :: rest => Options.scan { o with loopBudget := some value } rest

/-- A budget given as text, if one is given; it has to allow for one name. -/
def budget? : Option Text → Option (Option Nat)
  | Option.none => some Option.none
  | some t =>
    match count? t with
    | some n => if 1 ≤ n then some (some n) else Option.none
    | Option.none => Option.none

def Request.ofArguments (arguments : List Text) : Request :=
  match Options.none.scan arguments with
  | Option.none => .usage
  | some o =>
    if o.help then .help
    else if o.paths.isEmpty then .usage
    else match budget? o.loopBudget with
      | Option.none => .usage
      | some loopBudget => .invocation ⟨o.paths, o.exact, o.quiet, o.verbose, loopBudget⟩

end CommandLine

end PathResolution
