/-!
# Users

A user is known by name alone. One user is the superuser, whose home directory lies apart from the
others'.
-/

namespace PocketShell.User

/-- The name of the superuser. -/
def superuser : String := "root"

/-- The home directory of a user. -/
def home (user : String) : String :=
  if user = superuser then "/root" else "/home/" ++ user

/-- A character that a name may begin with: a small letter or an underscore. -/
def isStart (c : Char) : Bool :=
  c.isLower || c == '_'

/-- A character that a name may go on with. -/
def isRest (c : Char) : Bool :=
  isStart c || c.isDigit || c == '-'

/-- The text can name a user: small letters, digits, underscores and hyphens, the first a letter or
an underscore. -/
def isName (name : String) : Bool :=
  match name.toList with
  | [] => false
  | c :: cs => isStart c && cs.all isRest

end PocketShell.User
