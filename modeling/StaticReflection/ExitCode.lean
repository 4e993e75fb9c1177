import StaticReflection.Failure

/-!
# Exit codes

How the kinds of reported failures end a command, what the codes mean, and which
general categories of errors each kind belongs to.
-/

namespace StaticReflection

/-- General categories of errors. -/
inductive ErrorCategory where
  | lookup
  | wrongKind
  | badValue
  | unsupported
  | inputOutput
  deriving DecidableEq, Repr

namespace ErrorKind

/-- The exit code of a kind. -/
def exitCode : ErrorKind → Nat
  | .reflection => 1
  | .identifierNotFound => 3
  | .invalidNode => 4
  | .invalidArgument => 4
  | .unsupportedOperation => 1
  | .uncloneable => 1
  | .unfoldableExpression => 4
  | .circularReference => 1
  | .sourceAccess => 1

/-- The general categories of a kind. -/
def categories : ErrorKind → List ErrorCategory
  | .identifierNotFound => [.lookup]
  | .invalidNode => [.wrongKind]
  | .invalidArgument => [.badValue]
  | .unsupportedOperation => [.unsupported]
  | .unfoldableExpression => [.badValue]
  | .sourceAccess => [.inputOutput]
  | _ => []

end ErrorKind

namespace ExitCode

/-- The code of a command that was used wrongly. -/
def usage : Nat := 2

/-- The code of a command that failed without a report. -/
def general : Nat := 1

/-- What a code means. -/
def description? : Int → Option String
  | 0 => some "success"
  | 1 => some "unexpected error"
  | 2 => some "invalid usage (bad arguments or flags)"
  | 3 => some "class, property or source not found"
  | 4 => some "invalid or unfoldable input"
  | _ => none

/-- The code with which a failure ends a command. -/
def ofFailure (f : Failure) : Nat := (f.kind?.map ErrorKind.exitCode).getD general

end ExitCode

end StaticReflection
