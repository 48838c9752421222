/-
Environment variables.

Variables are kept in the order in which they were first set; a variable that
is set to the empty text is set. The system keeps names and values as bytes,
so it refuses texts that have none, and a text that spells the bytes of a
character one by one comes back as that character.
-/
import PathResolution.Fault

namespace PathResolution

/-- The variables that are set, each once. -/
structure Environment where
  bindings : List (Text × Text)
  deriving Repr

namespace Environment

def empty : Environment := ⟨[]⟩

def get? (env : Environment) (name : Text) : Option Text := env.bindings.lookup name

/-- The value of a variable, the empty text if it is not set. -/
def get (env : Environment) (name : Text) : Text := (env.get? name).getD []

def unset (env : Environment) (name : Text) : Environment :=
  ⟨env.bindings.filter fun b => b.1 != name⟩

def set (env : Environment) (name value : Text) : Environment :=
  if env.bindings.any (·.1 == name) then
    ⟨env.bindings.map fun b => if b.1 == name then (name, value) else b⟩
  else ⟨env.bindings ++ [(name, value)]⟩

-- ============================================================ the system

/-- Why the system does not set a variable with this name and this value, given
as bytes. A name has at least one byte and no equals sign. -/
def objection? (name value : List UInt8) : Option Fault :=
  if name.contains 0 || value.contains 0 then some (.refused .embeddedNul)
  else if name.contains 0x3D then some (.refused .illegalVariableName)
  else if name.isEmpty then some (.system (some Errno.invalidArgument) none)
  else none

/-- Has the system set a variable. -/
def assign (env : Environment) (name value : Text) : Except Fault Environment :=
  match utf8 name, utf8 value with
  | .error u, _ | .ok _, .error u => .error (.refused (.unencodable u))
  | .ok name, .ok value =>
    match objection? name value with
    | some fault => .error fault
    | none => .ok (env.set (ofUtf8 name) (ofUtf8 value))

/-- Has the system unset a variable, which need not be set. -/
def discard (env : Environment) (name : Text) : Except Fault Environment :=
  match utf8 name with
  | .error u => .error (.refused (.unencodable u))
  | .ok name => .ok (env.unset (ofUtf8 name))

/-- Has the system give a variable this value, or no value. -/
def update (env : Environment) (name : Text) : Option Text → Except Fault Environment
  | some value => env.assign name value
  | none => env.discard name

end Environment

end PathResolution
