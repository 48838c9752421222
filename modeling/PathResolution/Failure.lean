/-
What an operation can end with instead of a value, and how the faults of a
filesystem become failures.

A fault that is understood becomes a resolution error at the path where it
arose; the innermost place that translates it decides the path, because a
resolution error is never translated again. A fault that is not understood
stays what it is.
-/
import PathResolution.Argument
import PathResolution.Fault

namespace PathResolution

inductive Failure where
  | resolution (e : ResolutionError)
  /-- A question to the filesystem ended with this, and nobody translated it. -/
  | fault (f : Fault)
  | configuration (e : ConfigurationError)
  | notAPath (e : NotAPath)
  /-- The value, as it is shown, is no existence mode. -/
  | notAMode (shown : Text)
  | unencodable (u : Unencodable)
  deriving DecidableEq, Repr

/-- The failure that an error with this number makes. If there is no such error,
what making it ends with takes its place. -/
def Failure.ofCode (code : Errno) (filename : Option Filename) (cause : Option Fault) : Failure :=
  match ResolutionError.make code filename cause with
  | .ok e => .resolution e
  | .error f => .fault f

theorem Failure.ofCode_eq {code : Errno} (hfits : code.IsRepresentable)
    (filename : Option Filename) (cause : Option Fault) :
    Failure.ofCode code filename cause = .resolution ⟨code, filename, cause⟩ := by
  rw [ofCode, ResolutionError.make, if_pos hfits]

theorem Failure.ofCode_of_not_representable {code : Errno} (hfits : ¬ code.IsRepresentable)
    (filename : Option Filename) (cause : Option Fault) :
    Failure.ofCode code filename cause = .fault .numberTooLarge := by
  rw [ofCode, ResolutionError.make, if_neg hfits]

/-- What a fault becomes where it is understood. A fault that has an error number
is reported under it, and that may end with another fault. -/
def Fault.failureAt (path : Text) : Fault → Failure
  | .system code filename =>
    .ofCode (reportedCode code) (some (.text path)) (some (.system code filename))
  | .unnumbered family =>
    .ofCode (reportedCode none) (some (.text path)) (some (.unnumbered family))
  | .resolution code filename => .resolution ⟨code, filename, none⟩
  | .refused why =>
    .resolution ⟨Errno.invalidArgument, some (.text path), some (.refused why)⟩
  | .interrupted why => .fault (.interrupted why)
  | .nestedTooDeeply => .fault .nestedTooDeeply
  | .foreign name message => .fault (.foreign name message)

/-- Translates a failure that nobody has translated. -/
def Failure.reportedAt (path : Text) : Failure → Failure
  | .fault f => f.failureAt path
  | translated => translated

/-- What an error's number made is not translated again, not even the fault. -/
theorem Failure.reportedAt_ofCode (code : Errno) (filename : Option Filename)
    (cause : Option Fault) (path : Text) :
    (Failure.ofCode code filename cause).reportedAt path = .ofCode code filename cause := by
  by_cases hfits : code.IsRepresentable
  · rw [ofCode_eq hfits]
    rfl
  · rw [ofCode_of_not_representable hfits]
    rfl

def NotAMode.failure : NotAMode → Failure
  | .configuration e => .configuration e
  | .value shown => .notAMode shown

/-- The message of a failure that is no error of the system. -/
def Failure.message : Failure → Text
  | .resolution e => e.describe
  | .fault (.refused why) => why.message
  | .fault .nestedTooDeeply => nestingMessage
  | .fault (.foreign _ message) => message
  | .fault (.system _ _) | .fault (.unnumbered _) | .fault (.resolution _ _)
  | .fault (.interrupted _) => []
  | .configuration e => e.message
  | .notAPath e => e.message
  | .notAMode shown => notAModeMessage shown
  | .unencodable u => u.message

end PathResolution
