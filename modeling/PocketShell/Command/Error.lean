/-!
# Command errors

Why a line is refused or a command breaks. A command that cannot do what its operands ask says so
in its output; that is not an error in this sense.
-/

namespace PocketShell

/-- Why a line is not carried out. -/
inductive CommandError where
  /-- No command has the name. -/
  | notFound (name : String)
  /-- A redirection does not say where to. -/
  | missingRedirectTarget
  /-- The command broke. -/
  | failed (reason : String)
  deriving DecidableEq, Repr

/-- The error in words. -/
def CommandError.message : CommandError → String
  | notFound name => name ++ ": command not found"
  | missingRedirectTarget => "bash: syntax error near unexpected token `newline'"
  | failed reason => reason

end PocketShell
