/-
The classes of errors.

Callers tell errors apart by their classes. An error of the system has the class
that goes with its number. A resolution error has a class of its own for some
numbers; if the system has one for the same numbers, the error belongs to that
as well, and is caught where the system's own error would be.
-/
import PathResolution.Failure

namespace PathResolution

/-- The class of an error of the system with this number. -/
def systemClass (code : Option Errno) : Text :=
  text (match code with
    | some 1 | some 13 => "PermissionError"
    | some 2 => "FileNotFoundError"
    | some 3 => "ProcessLookupError"
    | some 4 => "InterruptedError"
    | some 10 => "ChildProcessError"
    | some 11 | some 114 | some 115 => "BlockingIOError"
    | some 17 => "FileExistsError"
    | some 20 => "NotADirectoryError"
    | some 21 => "IsADirectoryError"
    | some 32 | some 108 => "BrokenPipeError"
    | some 103 => "ConnectionAbortedError"
    | some 104 => "ConnectionResetError"
    | some 110 => "TimeoutError"
    | some 111 => "ConnectionRefusedError"
    | _ => "OSError")

namespace ResolutionError.Kind

def className : ResolutionError.Kind → Text
  | .tooManyLinks => text "SymlinkLoopError"
  | .targetTooLong => text "LinkTargetTooLongError"
  | .notFound => text "ComponentNotFoundError"
  | .notADirectory => text "ComponentNotADirectoryError"
  | .permission => text "ComponentPermissionError"
  | .other => text "ResolutionError"

/-- The class of the system that errors of this kind belong to, if there is one
for them alone. -/
def systemClass? : ResolutionError.Kind → Option Text
  | .notFound => some (text "FileNotFoundError")
  | .notADirectory => some (text "NotADirectoryError")
  | .permission => some (text "PermissionError")
  | .tooManyLinks | .targetTooLong | .other => none

/-- All classes that errors of this kind belong to, wider ones first. -/
def classes (k : ResolutionError.Kind) : List Text :=
  [text "Exception", text "OSError", text "CanonPathException", text "ResolutionError"]
    ++ k.systemClass?.toList ++ if k = .other then [] else [k.className]

/-- A resolution error belongs to the class that the system's error with the same
number has, unless that one has only the widest. -/
theorem systemClass_of_systemClass? {code : Errno} {name : Text}
    (h : (ofCode code).systemClass? = some name) : systemClass (some code) = name := by
  unfold ofCode at h
  split at h
  · cases h
  · split at h
    · cases h
    · split at h
      · next hcode =>
        subst hcode
        exact Option.some.inj h
      · split at h
        · next hcode =>
          subst hcode
          exact Option.some.inj h
        · split at h
          · next hcode =>
            rcases hcode with rfl | rfl <;> exact Option.some.inj h
          · cases h

end ResolutionError.Kind

def Refusal.className : Refusal → Text
  | .unencodable _ => text "UnicodeEncodeError"
  | .injectedCoding => text "UnicodeError"
  | .cursorNotOpen | .embeddedNul | .embeddedNulByte | .illegalVariableName | .injected =>
    text "ValueError"

def Fault.className : Fault → Text
  | .system code _ => systemClass code
  | .unnumbered family => family
  | .resolution code _ => (ResolutionError.Kind.ofCode code).className
  | .refused why => why.className
  | .interrupted .endOfInput => text "EOFError"
  | .interrupted .requested => text "KeyboardInterrupt"
  | .nestedTooDeeply => text "RecursionError"
  | .foreign name _ => name

def Failure.className : Failure → Text
  | .resolution e => e.kind.className
  | .fault f => f.className
  | .configuration _ => text "InvalidConfigurationException"
  | .notAPath _ => text "TypeError"
  | .notAMode _ => text "ValueError"
  | .unencodable _ => text "UnicodeEncodeError"

end PathResolution
