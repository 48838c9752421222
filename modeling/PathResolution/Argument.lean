/-
Arguments of any kind.

Callers may hand in values of any type where a path or a mode is expected. A
path is text, bytes, or an object that names one of the two; everything else
is refused by the name of its type. A mode is nothing (ask the environment),
a truth value, a mode, or exactly the name of one; everything else is refused
as it is written.
-/
import PathResolution.Binary64.Shortest
import PathResolution.Limits
import PathResolution.Text.Utf8

namespace PathResolution

-- ================================================================ values

inductive Value where
  | nothing
  | truth (b : Bool)
  | integer (n : Int)
  | real (x : Binary64)
  | string (t : Text)
  | bytes (b : List UInt8)
  | list (items : List Value)
  | mode (m : ExistenceMode)
  /-- An object that stands for the path it is asked for. -/
  | pathLike (path : Value)
  deriving Inhabited

def Value.typeName : Value → Text
  | .nothing => text "NoneType"
  | .truth _ => text "bool"
  | .integer _ => text "int"
  | .real _ => text "float"
  | .string _ => text "str"
  | .bytes _ => text "bytes"
  | .list _ => text "list"
  | .mode _ => text "ExistenceMode"
  | .pathLike _ => text "PathLike"

mutual

def Value.shown : Value → Text
  | .nothing => text "None"
  | .truth b => text (if b then "True" else "False")
  | .integer n => decimal n
  | .real x => x.shown
  | .string t => quoted t
  | .bytes b => quotedBytes b
  | .list items => 0x5B :: Value.shownItems items ++ [0x5D]
  | .mode m => text "<ExistenceMode." ++ m.name ++ text ": "
      ++ quoted m.name ++ text ">"
  | .pathLike _ => text "<PathLike object>"

def Value.shownItems : List Value → Text
  | [] => []
  | [item] => item.shown
  | item :: more => item.shown ++ text ", " ++ Value.shownItems more

end

-- ================================================================= paths

/-- The two forms of a path. The answer to a path has the form of the path. -/
inductive PathArgument where
  | text (path : Text)
  | bytes (path : List UInt8)
  deriving DecidableEq, Repr

/-- Why a value is no path. -/
inductive NotAPath where
  /-- Neither text nor bytes nor an object that stands for a path. -/
  | argument (typeName : Text)
  /-- An object that stands for something that is no path. -/
  | representation (owner typeName : Text)
  deriving DecidableEq, Repr

def NotAPath.message : NotAPath → Text
  | .argument typeName =>
    text "expected str, bytes or os.PathLike object, not " ++ typeName
  | .representation owner typeName =>
    text "expected " ++ owner ++ text ".__fspath__() to return str or bytes, not " ++ typeName

/-- The path that a value stands for. An object is asked once: what it answers
must be text or bytes. -/
def Value.path? : Value → Except NotAPath PathArgument
  | .string t => .ok (.text t)
  | .bytes b => .ok (.bytes b)
  | .mode m => .ok (.text m.name)
  | .pathLike (.string t) => .ok (.text t)
  | .pathLike (.bytes b) => .ok (.bytes b)
  | .pathLike (.mode m) => .ok (.text m.name)
  | .pathLike v => .error (.representation (text "PathLike") v.typeName)
  | v => .error (.argument v.typeName)

/-- How the log shows the path that a value stands for: a mode as the mode that
it is, and everything else quoted. -/
def Value.shownPath : Value → Text → Text
  | .mode m, _ | .pathLike (.mode m), _ => (Value.mode m).shown
  | _, path => quoted path

-- ================================================================= modes

/-- Why a value is no existence mode. -/
inductive NotAMode where
  /-- The environment was asked, and is not valid. -/
  | configuration (e : ConfigurationError)
  /-- The value is neither a mode nor the name of one. -/
  | value (shown : Text)
  deriving DecidableEq, Repr

def Value.mode? (env : Environment) : Value → Except NotAMode ExistenceMode
  | .nothing =>
    match ExistenceMode.ofEnvironment env with
    | .ok asked => .ok (asked.getD .missingOk)
    | .error value => .error (.configuration (.unknownMode value))
  | .truth true => .ok .exact
  | .truth false => .ok .missingOk
  | .mode m => .ok m
  | .string t =>
    match ExistenceMode.ofName? t with
    | some m => .ok m
    | none => .error (.value (quoted t))
  | v => .error (.value v.shown)

def notAModeMessage (shown : Text) : Text := shown ++ text " is not a valid ExistenceMode"

end PathResolution
