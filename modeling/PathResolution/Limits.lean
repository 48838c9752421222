/-
The limits of a resolution, and where they come from.

Each limit is an argument if there is one, else an environment variable if it
is set and not empty, else a default. An argument makes the variable
irrelevant, even a malformed one.
-/
import PathResolution.Existence
import PathResolution.Text.Numeral

namespace PathResolution

-- ================================================================ limits

structure Limits where
  /-- How many names one resolution may take. -/
  loopBudget : Nat
  /-- The size of the buffer that a link's target is read into, the byte that
  ends it included. -/
  maxLinkSize : Nat
  /-- A resolution may take a name. -/
  one_le_loopBudget : 1 ≤ loopBudget
  /-- A target of one byte fits the buffer. -/
  two_le_maxLinkSize : 2 ≤ maxLinkSize
  deriving DecidableEq, Repr

def Limits.standard : Limits := ⟨9999, 4096, by decide, by decide⟩

-- ================================================================ errors

inductive ConfigurationError where
  | notAnInteger (name value : Text)
  /-- A variable holds too small an integer. -/
  | belowMinimum (name : Text) (minimum : Nat) (value : Int)
  | budgetNotPositive (value : Int)
  | linkSizeTooSmall (value : Int)
  | unknownMode (value : Text)
  deriving DecidableEq, Repr

def ConfigurationError.message : ConfigurationError → Text
  | .notAnInteger name value =>
    name ++ text " must be an integer, got " ++ quoted value ++ text "."
  | .belowMinimum name minimum value =>
    name ++ text " must be at least " ++ decimalNat minimum ++ text ", got "
      ++ decimal value ++ text "."
  | .budgetNotPositive value =>
    text "loop_budget must be positive, got " ++ decimal value ++ text "."
  | .linkSizeTooSmall value =>
    text "max_link_size must be at least 2, got " ++ decimal value ++ text "."
  | .unknownMode value =>
    ExistenceMode.environmentName ++ text " must be one of ["
      ++ (text ", ").intercalate (ExistenceMode.all.map fun m => quoted m.name)
      ++ text "], got " ++ quoted value ++ text "."

-- =============================================================== sources

def loopBudgetVariable : Text := text "CANONPATH_LOOP_BUDGET"

def maxLinkSizeVariable : Text := text "CANONPATH_MAX_LINK_SIZE"

/-- The integer in a variable that must be no smaller than the minimum. An
empty variable says nothing. -/
def Environment.integerAtLeast? (env : Environment) (name : Text) (minimum : Nat) :
    Except ConfigurationError (Option Int) :=
  match env.get name with
  | [] => .ok none
  | value =>
    match integer? value with
    | none => .error (.notAnInteger name value)
    | some n =>
      if n < minimum then .error (.belowMinimum name minimum n) else .ok (some n)

/-- The value of a setting before it is checked: the argument, else the
variable. -/
def settingSource (argument : Option Int) (env : Environment) (name : Text)
    (minimum : Nat) : Except ConfigurationError (Option Int) :=
  match argument with
  | some n => .ok (some n)
  | none => env.integerAtLeast? name minimum

/-- The limits that the arguments and the environment ask for. Both variables
are read before the arguments are checked. An argument that is too small is
shown in the error, so this speaks of arguments of at most 4300 digits only:
longer ones cannot be shown, and to try ends with another error. -/
def Limits.configure (loopBudget maxLinkSize : Option Int) (env : Environment) :
    Except ConfigurationError Limits := do
  let budget ← settingSource loopBudget env loopBudgetVariable 1
  let size ← settingSource maxLinkSize env maxLinkSizeVariable 2
  let budget := budget.getD standard.loopBudget
  let size := size.getD standard.maxLinkSize
  if hb : budget < 1 then throw (.budgetNotPositive budget)
  else if hs : size < 2 then throw (.linkSizeTooSmall size)
  else pure ⟨budget.toNat, size.toNat, by omega, by omega⟩

/-- The limits as a description of a resolver shows them. -/
def Limits.describe (limits : Limits) (filesystem : Text) : Text :=
  text "Resolver(filesystem=" ++ filesystem ++ text ", loop_budget="
    ++ decimalNat limits.loopBudget ++ text ", max_link_size="
    ++ decimalNat limits.maxLinkSize ++ text ")"

end PathResolution
