import PocketShell.Path.Home
import PocketShell.User

/-!
# The prompt

The user, the host and the current directory, the home directory written as `~`, and a mark that
tells the superuser from others.
-/

namespace PocketShell

/-- The mark at the end of a user's prompt. -/
def promptMark (user : String) : String :=
  if user = User.superuser then "#" else "$"

/-- The prompt of a user on a host in a directory. -/
def prompt (user host directory home : String) : String :=
  user ++ "@" ++ host ++ ":" ++ Path.abbreviateHome home directory ++ promptMark user

end PocketShell
