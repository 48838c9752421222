/-
How strictly the last name of a path has to exist.

Names before the last one must exist in any case. The mode comes from the
caller, or from an environment variable, or is the lenient one.
-/
import PathResolution.Environment
import PathResolution.Text.LowerCase
import PathResolution.Text.Quoted

namespace PathResolution

/-- Whether a missing last name fails a resolution. -/
inductive ExistenceMode where
  | exact
  /-- A missing last name is kept as it is written. -/
  | missingOk
  deriving DecidableEq, Repr

namespace ExistenceMode

def name : ExistenceMode → Text
  | .exact => text "exact"
  | .missingOk => text "missing_ok"

def all : List ExistenceMode := [.exact, .missingOk]

def ofName? (t : Text) : Option ExistenceMode := all.find? fun m => m.name == t

def environmentName : Text := text "CANONPATH_EXISTENCE_MODE"

/-- The mode that the environment asks for, or the lower-cased value of the
variable if it names none. An empty variable asks for nothing. -/
def ofEnvironment (env : Environment) : Except Text (Option ExistenceMode) :=
  match lowerCase (env.get environmentName) with
  | [] => .ok none
  | value =>
    match ofName? value with
    | some mode => .ok (some mode)
    | none => .error value

end ExistenceMode

end PathResolution
