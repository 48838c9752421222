/-
What can go wrong, as causes.

A fault is what one question to the system fails with. A resolution turns the
faults it understands into a `ResolutionError`, which carries an error
number, the path that was reached, and the fault behind it if there was one.
-/
import PathResolution.Errno
import PathResolution.Path
import PathResolution.Text.Quoted
import PathResolution.Text.Utf8

namespace PathResolution

-- ============================================================= filenames

/-- What an error is about: a path as text or bytes, or a handle. -/
inductive Filename where
  | text (path : Text)
  | bytes (path : List UInt8)
  | number (handle : Int)
  deriving DecidableEq, Repr

def Filename.inBytes : Filename → Filename
  | .text path =>
    match utf8 path with
    | .ok path => .bytes path
    | .error _ => .text path
  | other => other

def Filename.shown : Filename → Text
  | .text path => quoted path
  | .bytes path => quotedBytes path
  | .number handle => decimal handle

-- ================================================================ faults

/-- Why a value is refused before anything is done with it. -/
inductive Refusal where
  /-- A cursor was used that holds no handle. -/
  | cursorNotOpen
  /-- A text holds the code point that ends a text. -/
  | embeddedNul
  /-- A path given as bytes holds the byte that ends a path. -/
  | embeddedNulByte
  /-- The name of a variable holds the sign that ends such a name. -/
  | illegalVariableName
  | unencodable (u : Unencodable)
  /-- A filesystem refused for a reason of its own. -/
  | injected
  /-- A filesystem refused the coding of a name for a reason of its own. -/
  | injectedCoding
  deriving DecidableEq, Repr

/-- Why a program is stopped from outside. -/
inductive Interruption where
  | endOfInput
  | requested
  deriving DecidableEq, Repr

/-- What a question to the system can fail with. -/
inductive Fault where
  /-- The system reports an error, usually with a number. -/
  | system (code : Option Errno) (filename : Option Filename)
  /-- The system reports an error of a family, by the family's name alone. -/
  | unnumbered (family : Text)
  /-- The filesystem itself reports what a resolution would. -/
  | resolution (code : Errno) (filename : Option Filename)
  | refused (why : Refusal)
  /-- The program is stopped; a resolution does not touch this. -/
  | interrupted (why : Interruption)
  /-- Too many steps are underway inside each other; a resolution does not touch
  this. -/
  | nestedTooDeeply
  /-- Anything else, by name and with its message; a resolution does not touch
  this either. -/
  | foreign (name message : Text)
  deriving DecidableEq, Repr

def Fault.code? : Fault → Option Errno
  | .system code _ => code
  | .resolution code _ => some code
  | .unnumbered _ | .refused _ | .interrupted _ | .nestedTooDeeply | .foreign _ _ => none

/-- A fault of the system about a path that was given as bytes. -/
def Fault.inBytes : Fault → Fault
  | .system code filename => .system code (filename.map Filename.inBytes)
  | other => other

def Unencodable.message (u : Unencodable) : Text :=
  if u.stop = u.start + 1 then
    text "'utf-8' codec can't encode character '" ++ numbered u.codePoint
      ++ text "' in position " ++ decimalNat u.start ++ text ": surrogates not allowed"
  else
    text "'utf-8' codec can't encode characters in position " ++ decimalNat u.start
      ++ text "-" ++ decimalNat (u.stop - 1) ++ text ": surrogates not allowed"

def Refusal.message : Refusal → Text
  | .cursorNotOpen => text "DirectoryCursor is not open."
  | .embeddedNul => text "embedded null byte"
  | .embeddedNulByte => text "lstat: embedded null character in path"
  | .illegalVariableName => text "illegal environment variable name"
  | .unencodable u => u.message
  | .injected | .injectedCoding => text "injected"

def nestingMessage : Text := text "maximum recursion depth exceeded"

-- ===================================================== resolution errors

structure ResolutionError where
  code : Errno
  /-- The part of the path up to where it failed. -/
  filename : Option Filename
  /-- The fault that led to it, if one did. -/
  cause : Option Fault
  deriving DecidableEq, Repr

/-- The families of resolution errors that callers tell apart. -/
inductive ResolutionError.Kind where
  | tooManyLinks
  | targetTooLong
  | notFound
  | notADirectory
  | permission
  | other
  deriving DecidableEq, Repr

def ResolutionError.Kind.ofCode (code : Errno) : ResolutionError.Kind :=
  if code = Errno.tooManyLinks then .tooManyLinks
  else if code = Errno.nameTooLong then .targetTooLong
  else if code = Errno.noEntry then .notFound
  else if code = Errno.notADirectory then .notADirectory
  else if code = Errno.permissionDenied ∨ code = Errno.notPermitted then .permission
  else .other

def ResolutionError.kind (e : ResolutionError) : ResolutionError.Kind := .ofCode e.code

/-- The error as one line: number, text, and what it is about. -/
def ResolutionError.describe (e : ResolutionError) : Text :=
  text "[Errno " ++ decimal e.code ++ text "] " ++ Errno.message e.code
    ++ match e.filename with
      | some f => text ": " ++ f.shown
      | none => []

/-- What it ends with to ask for the text of a number that does not fit. -/
def Fault.numberTooLarge : Fault :=
  .foreign (text "OverflowError") (text "Python int too large to convert to C int")

/-- Makes the error with this number. Its text is asked for then, so there is no
error with a number that does not fit. -/
def ResolutionError.make (code : Errno) (filename : Option Filename) (cause : Option Fault) :
    Except Fault ResolutionError :=
  if code.IsRepresentable then .ok ⟨code, filename, cause⟩ else .error .numberTooLarge

/-- An error of a resolution at a path, without a fault behind it. -/
def ResolutionError.at (code : Errno) (path : Text) : ResolutionError :=
  ⟨code, some (.text path), none⟩

/-- The number under which a fault of the system is reported: its own, unless
it has none that says anything. -/
def reportedCode (code : Option Errno) : Errno :=
  match code with
  | some n => if n = 0 then Errno.inputOutput else n
  | none => Errno.inputOutput

end PathResolution
