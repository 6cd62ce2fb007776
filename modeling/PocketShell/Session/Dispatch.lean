import PocketShell.Command.Run
import PocketShell.Line

/-!
# From a line to its outcome

A line is read, its command is run, and the output goes to the target of the redirection if there is
one. The target is found after the command has run; it is written even if the command shows nothing.
A control signal goes to the host whether the output is redirected or not.
-/

namespace PocketShell.Context

variable {σ : Type}

/-- Writes an outcome to the target of a redirection. -/
def divert (context : Context σ) (redirect : Redirect) (outcome : Outcome) :
    Outcome × Context σ :=
  let content := outcome.text?.getD ""
  match context.edit redirect.target (.write content redirect.mode) with
  | (none, context) => (if outcome.isSignal then outcome else .silent, context)
  | (some fault, context) =>
    (.text ("bash: " ++ redirect.target ++ ": " ++ fault.message), context)

/-- Runs the command of a line. -/
def answer [Storage σ] (now : Calendar.Moment) (context : Context σ) (line : Line) :
    Outcome × Context σ :=
  match Command.parse? line.name line.args with
  | none => (.text (CommandError.notFound line.name).message, context)
  | some command =>
    match command.run now context with
    | (.error error, context) =>
      (.text ("Error executing " ++ line.name ++ ": " ++ error.message),
        context.report (.warning "command failed"))
    | (.ok outcome, context) =>
      match line.redirect with
      | none => (outcome, context)
      | some redirect => context.divert redirect outcome

/-- What a typed line comes to. -/
def dispatch [Storage σ] (now : Calendar.Moment) (context : Context σ) (input : String) :
    Outcome × Context σ :=
  match Line.parse input with
  | .ok none => (.silent, context)
  | .ok (some line) => context.answer now line
  | .error error => (.text error.message, context)

end PocketShell.Context
