/-
The files of assignments to environment variables that the programs here read.

A file holds one assignment a line: a name, an equals sign and a value. A
value may stand in single or double quotes, which may span lines and in which
a backslash takes the next code point with it; without quotes it ends at the
line or at a number sign with white space before it. Comments, empty lines,
the word `export` in front, and names without a value are allowed; a statement
that makes no sense is reported by its line and skipped. Inside values, `$`
and braces stand for the value of a variable.
-/
import PathResolution.Disk.Basic
import PathResolution.Environment
import PathResolution.Text.Blank

namespace PathResolution.Assignments

-- ======================================================= white space

/-- White space, the information separators included. -/
def isSpace (c : CodePoint) : Bool :=
  c.isBlank || (decide (0x1C ≤ c.val) && decide (c.val ≤ 0x1F))

def lineEnd : CodePoint := 0x0A

def isInlineSpace (c : CodePoint) : Bool := isSpace c && c != lineEnd

def trimmed (t : Text) : Text :=
  ((t.dropWhile isSpace).reverse.dropWhile isSpace).reverse

-- =================================================================== files

/-- The text with every line ended in the same way; a carriage return ends a
line, alone or together with the line feed after it. -/
def uniformLines : Text → Text
  | [] => []
  | c :: rest =>
    if c ≠ 0x0D then c :: uniformLines rest
    else match rest with
      | [] => [lineEnd]
      | d :: _ => if d = lineEnd then uniformLines rest else lineEnd :: uniformLines rest

/-- The text of a file: a byte order mark at its start does not count. -/
def contents (file : Text) : Text :=
  uniformLines (if file.head? = some 0xFEFF then file.tail else file)

-- =========================================================== quoted texts

/-- The text up to the next mark that no backslash takes along, and the text
after the mark. -/
def upToMark (mark : CodePoint) : (escaped : Bool) → Text → Option (Text × Text)
  | _, [] => none
  | escaped, c :: rest =>
    if c = mark ∧ escaped = false then some ([], rest)
    else
      (upToMark mark (c == 0x5C && !escaped) rest).map fun (inside, after) => (c :: inside, after)

/-- What a backslash and the given code point stand for between these
marks. -/
def unescape? (mark c : CodePoint) : Option CodePoint :=
  if c = 0x5C ∨ c = 0x27 then some c
  else if mark = 0x27 then none
  else if c = 0x22 then some c
  else if c = 0x61 then some 0x07
  else if c = 0x62 then some 0x08
  else if c = 0x66 then some 0x0C
  else if c = 0x6E then some 0x0A
  else if c = 0x72 then some 0x0D
  else if c = 0x74 then some 0x09
  else if c = 0x76 then some 0x0B
  else none

def unescaped (mark : CodePoint) : Text → Text
  | [] => []
  | [c] => [c]
  | c :: d :: rest =>
    if c = 0x5C then
      match unescape? mark d with
      | some e => e :: unescaped mark rest
      | none => c :: unescaped mark (d :: rest)
    else c :: unescaped mark (d :: rest)

-- ============================================================= statements

def afterLine (t : Text) : Text := (t.dropWhile (· != lineEnd)).drop 1

/-- The text after the end of a line, if there is nothing left on it but white
space and a comment. -/
def endOfLine? (t : Text) : Option Text :=
  let rest := t.dropWhile isInlineSpace
  let rest := if rest.head? = some 0x23 then rest.dropWhile (· != lineEnd) else rest
  match rest with
  | [] => some []
  | c :: after => if c = lineEnd then some after else none

def beforeComment : Text → Text
  | [] => []
  | c :: rest =>
    if isSpace c && (rest.dropWhile isSpace).head? == some 0x23 then []
    else c :: beforeComment rest

/-- The text after the word that may stand in front of a name. -/
def afterExport (t : Text) : Text :=
  let word := text "export"
  if word.isPrefixOf t then
    let rest := t.drop word.length
    if (rest.head?.map isInlineSpace).getD false then rest.dropWhile isInlineSpace else t
  else t

/-- A name and the text after it. A comment has no name. -/
def name? (t : Text) : Option (Option Text × Text) :=
  match t with
  | [] => none
  | c :: rest =>
    if c = 0x23 then some (none, t)
    else if c = 0x27 then
      let key := rest.takeWhile (· != 0x27)
      let after := rest.dropWhile (· != 0x27)
      if key.isEmpty || after.isEmpty then none else some (some key, after.tail)
    else
      let ends := fun d => d == 0x3D || d == 0x23 || isSpace d
      let key := t.takeWhile fun d => !ends d
      if key.isEmpty then none else some (some key, t.drop key.length)

/-- A value and the text after it; `t` starts after the equals sign. -/
def value? (t : Text) : Option (Text × Text) :=
  let line := t.takeWhile (· != lineEnd)
  let plain := (trimmed (beforeComment line), t.drop line.length)
  match t.dropWhile isInlineSpace with
  | [] => some plain
  | c :: rest =>
    if c = 0x27 ∨ c = 0x22 then
      (upToMark c false rest).map fun (inside, after) => (unescaped c inside, after)
    else some plain

inductive Said where
  | nothing
  /-- A name has a value, or is mentioned without one. -/
  | binding (name : Text) (value : Option Text)
  | nonsense
  deriving DecidableEq, Repr

def Said.ofName : Option Text → Option Text → Said
  | some name, value => .binding name value
  | none, _ => .nothing

/-- Reads one statement, which starts with something that is no white space:
what it says, and the text after it. One that makes no sense ends with the
line up to which sense could be made of it. -/
def statement (t : Text) : Said × Text :=
  let started := afterExport t
  match name? started with
  | none => (.nonsense, afterLine started)
  | some (name, rest) =>
    let rest := rest.dropWhile isInlineSpace
    let (value, ending) :=
      if rest.head? = some 0x3D then
        match value? rest.tail with
        | none => (none, none)
        | some (value, ending) => (some value, some ending)
      else (none, some rest)
    match ending with
    | none => (.nonsense, afterLine rest)
    | some ending =>
      match endOfLine? ending with
      | none => (.nonsense, afterLine ending)
      | some after => (.ofName name value, after)

/-- What the statements of a text say, each with the text from which it was
looked for. Every statement takes at least one code point, so no more than
`size` of them are read. -/
def statements : (size : Nat) → Text → List (Said × Text)
  | 0, _ => []
  | size + 1, t =>
    match t.dropWhile isSpace with
    | [] => []
    | start =>
      let (said, after) := statement start
      (said, t) :: statements size after

/-- The lines of the statements that make no sense. A statement is looked for
from the line after the one before it, and lines are counted from 1. -/
def nonsenseLines (file : Text) : List Nat :=
  let all := contents file
  (statements (all.length + 1) all).filterMap fun (said, start) =>
    if said = .nonsense then some (all.count lineEnd + 1 - start.count lineEnd) else none

/-- The names that a file mentions, with their values as they are written. -/
def bindings (file : Text) : List (Text × Option Text) :=
  let all := contents file
  (statements (all.length + 1) all).filterMap fun (said, _) =>
    match said with
    | .binding name value => some (name, value)
    | .nothing | .nonsense => none

-- ============================================================== references

/-- A reference after its dollar sign and brace: the name, what stands in for
it if it is not set, and the text after the reference. -/
def reference? (t : Text) : Option (Text × Option Text × Text) :=
  let name := t.takeWhile fun c => c != 0x7D && c != 0x3A
  match t.drop name.length with
  | [] => none
  | c :: rest =>
    if c = 0x7D then some (name, none, rest)
    else match rest with
      | [] => none
      | d :: rest =>
        if d = 0x2D then
          let standIn := rest.takeWhile (· != 0x7D)
          match rest.drop standIn.length with
          | [] => none
          | _ :: after => some (name, some standIn, after)
        else none

/-- A value with its references replaced; `find?` knows the variables, set or
without a value. -/
def expand (find? : Text → Option (Option Text)) : (size : Nat) → Text → Text
  | 0, _ => []
  | _, [] => []
  | size + 1, c :: rest =>
    match (if c = 0x24 ∧ rest.head? = some 0x7B then reference? rest.tail else none) with
    | some (name, standIn, after) =>
      (match find? name with
        | some value => value.getD []
        | none => standIn.getD [])
        ++ expand find? size after
    | none => c :: expand find? size rest

-- ============================================================== assigning

/-- The variables with one more value. A name keeps its first place. -/
def remember (known : List (Text × Option Text)) (name : Text) (value : Option Text) :
    List (Text × Option Text) :=
  if known.any (·.1 == name) then
    known.map fun b => if b.1 == name then (name, value) else b
  else known ++ [(name, value)]

/-- What a file assigns. A reference means a variable of the environment
before one that the file assigns. -/
def ofText (env : Environment) (file : Text) : List (Text × Option Text) :=
  (bindings file).foldl (fun known (name, value) =>
    let find? := fun n => match env.get? n with
      | some v => some (some v)
      | none => known.lookup n
    remember known name (value.map fun v => expand find? (v.length + 1) v)) []

/-- The environment with what a file assigns to variables that are not
set. -/
def load (env : Environment) (file : Text) : Except Fault Environment :=
  (ofText env file).foldlM (fun env (name, value) =>
    match env.get? name, value with
    | none, some v => env.assign name v
    | _, _ => .ok env) env

-- =============================================================== switching

/-- The variable that says whether files are read at all. -/
def switchName : Text := text "PYTHON_DOTENV_DISABLED"

/-- An upper-case ASCII letter as the lower-case one, and the long s as an s. -/
def folded (c : CodePoint) : CodePoint :=
  if 0x41 ≤ c.val ∧ c.val ≤ 0x5A then CodePoint.ofNat (c.val + 0x20)
  else if c = 0x17F then 0x73
  else c

/-- Whether the environment says that no file is read, in one of the usual
words and in any case. -/
def isDisabled (env : Environment) : Bool :=
  ["1", "true", "t", "yes", "y"].any fun word => (env.get switchName).map folded == text word

-- ============================================================== searching

/-- The file that may assign variables, in the working directory of the
process. -/
def fileName : Name := text ".env"

/-- The text of the file that may assign variables. It is looked for by the path
of the working directory: the search cannot start if there is no such path any
more or if that is too long to be looked at, and it finds nothing if only the
path of the file is. -/
def find (disk : Disk) (file : Option Text) : Except Fault (Option Text) :=
  match disk.workingPath with
  | .error fault => .error fault
  | .ok directory =>
    if Disk.isTooLong directory then .error (.system none none)
    else .ok (if Disk.isTooLong (joinPath directory fileName) then none else file)

end PathResolution.Assignments
