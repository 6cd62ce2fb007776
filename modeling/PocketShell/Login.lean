import PocketShell.Named

/-!
# Logins

A `Login` is what a session knows of the one who types: the current user and directory, the
variables in the order of their definition, and the lines typed so far. The user and the directory
also stand among the variables, as `USER` and `PWD`.
-/

namespace PocketShell

/-- The user, the directory, the variables and the history of a session. -/
structure Login where
  user : String
  directory : String
  environment : Named String
  /-- The lines typed so far, the oldest first. -/
  history : List String := []
  deriving DecidableEq, Repr

namespace Login

/-- The directories in which programs are sought, as `PATH` has them. -/
def searchPath : String := "/usr/local/bin:/usr/bin:/bin"

/-- The program that `SHELL` names. -/
def shellProgram : String := "/bin/bash"

/-- The login of `user` at the start of a session. -/
def start (user home directory : String) : Login where
  user := user
  directory := directory
  environment :=
    [("USER", user), ("HOME", home), ("PWD", directory), ("PATH", searchPath),
      ("SHELL", shellProgram)]

/-- The login in another directory. -/
def enter (login : Login) (directory : String) : Login :=
  { login with directory, environment := login.environment.put "PWD" directory }

/-- The login of another user. -/
def become (login : Login) (user : String) : Login :=
  { login with user, environment := login.environment.put "USER" user }

/-- The home directory: the value of `HOME`, or the root if it has none. -/
def home (login : Login) : String :=
  (login.environment.get? "HOME").getD "/"

/-- The login with a value for a variable. -/
def define (login : Login) (name value : String) : Login :=
  { login with environment := login.environment.put name value }

/-- The login without a variable. -/
def undefine (login : Login) (name : String) : Login :=
  { login with environment := login.environment.erase name }

/-- The login with one more line in the history. -/
def record (login : Login) (line : String) : Login :=
  { login with history := login.history ++ [line] }

end Login

end PocketShell
