/-!
# Notices

What a session reports on the side, apart from the output of its commands.
-/

namespace PocketShell

/-- How much a notice matters. -/
inductive Level where
  | error
  | warn
  | info
  | debug
  | trace
  deriving DecidableEq, Repr

/-- A line for the log. -/
structure Notice where
  level : Level
  text : String
  deriving DecidableEq, Repr

/-- A notice of something that went wrong and was got over. -/
def Notice.warning (text : String) : Notice :=
  ⟨.warn, text⟩

end PocketShell
