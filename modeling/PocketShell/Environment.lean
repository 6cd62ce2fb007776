import PocketShell.Login
import PocketShell.Text.Split

/-!
# Setting variables

What a user may do to the variables of a login: assign and print them with `export`, take them away
with `unset`. Names are checked, the variables that follow the login cannot be assigned, and those
with which every login starts cannot be taken away.
-/

namespace PocketShell.Environment

/-- A letter or an underscore. -/
def isNameStart (c : Char) : Bool :=
  c.isAlpha || c == '_'

/-- A letter, a digit or an underscore; of letters and digits, the ASCII ones. -/
def isNameRest (c : Char) : Bool :=
  c.isAlphanum || c == '_'

/-- The characters of a variable name. -/
def isNameList : List Char → Bool
  | [] => false
  | c :: cs => isNameStart c && cs.all isNameRest

/-- The text can name a variable. -/
def isName (name : String) : Bool :=
  isNameList name.toList

/-- The variables that follow the login. -/
def readOnly : List String := ["USER", "PWD"]

/-- The variables with which every login starts. -/
def required : List String := ["USER", "HOME", "PWD", "PATH", "SHELL"]

/-- A line for each variable, as `env` shows them. -/
def listing (login : Login) : String :=
  "\n".intercalate (login.environment.map fun entry => entry.1 ++ "=" ++ entry.2)

/-- A line for each variable, as `export` shows them. -/
def declarations (login : Login) : String :=
  "\n".intercalate
    (login.environment.map fun entry =>
      "declare -x " ++ entry.1 ++ "=\"" ++ entry.2 ++ "\"")

/-- The value as it is assigned, without the quotes around it. -/
def unquoteValue (value : String) : String :=
  Text.trimAll '\'' (Text.trimAll '"' value)

/-- Takes one operand of `export`: `NAME=VALUE` assigns, `NAME` prints. Answers the line to show, if
there is one. -/
def assign (login : Login) (operand : String) : Option String × Login :=
  let name := ((Text.cutFirst? '=' operand).map (·.1)).getD operand
  if !isName name then
    (some ("export: `" ++ operand ++ "': not a valid identifier"), login)
  else
    match Text.cutFirst? '=' operand with
    | none => ((login.environment.get? name).map fun value => name ++ "=" ++ value, login)
    | some (_, value) =>
      if name ∈ readOnly then (some ("export: " ++ name ++ ": readonly variable"), login)
      else (none, login.define name (unquoteValue value))

/-- Takes one operand of `unset`. Answers the line to show if the operand is refused. -/
def discard (login : Login) (name : String) : Option String × Login :=
  if !isName name then (some ("unset: `" ++ name ++ "': not a valid identifier"), login)
  else if name ∈ required then
    (some ("unset: " ++ name ++ ": cannot unset: readonly variable"), login)
  else (none, login.undefine name)

end PocketShell.Environment
