import PocketShell.Tree.Node
import PocketShell.User

/-!
# The tree of a first session

What a user finds at the start of a first session: a home directory with two files to read, the
homes of the others, a greeting and a directory for what need not last.
-/

namespace PocketShell.Seed

/-- The text of `README.txt`. -/
def readme : String :=
  "Welcome to RIPLINE!\n\nWe build habit tracking apps and mobile games.\n" ++
  "Type \"help\" for available commands."

/-- The text of `about.txt`. -/
def about : String :=
  "RIPLINE Development\n\nFocused on creating meaningful software experiences.\n\n" ++
  "Current Projects:\n- Habit Tracking Application\n- Mobile Games (Coming Soon)"

/-- The greeting. -/
def greeting : String :=
  "Welcome to the RIPLINE Terminal!\nType \"help\" for available commands.\n"

/-- A home directory. -/
def homeDirectory : Node :=
  .directory [("README.txt", .file readme), ("about.txt", .file about)]

/-- The tree for a user. -/
def tree (user : String) : Node :=
  let isSuperuser := user = User.superuser
  .directory
    [("home", .directory (if isSuperuser then [] else [(user, homeDirectory)])),
      ("root", if isSuperuser then homeDirectory else .directory []),
      ("etc", .directory [("motd", .file greeting)]),
      ("tmp", .directory [])]

end PocketShell.Seed
