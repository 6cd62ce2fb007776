import PocketShell.Path

/-!
# The home directory in paths

`~` stands for the home directory at the start of a path that is typed, and for the start of a path
that is shown.
-/

namespace PocketShell.Path

/-- Puts the home directory in the place of a leading `~`, alone or before `/`. -/
def expandHome (home input : String) : String :=
  if input = "~" then home
  else
    match Text.dropOpening? "~/" input with
    | some rest => String.ofList (home.toList.reverse.dropWhile (· == '/')).reverse ++ "/" ++ rest
    | none => input

/-- Puts `~` in the place of the home directory at the start of a path; a home directory that is
the root is written out. -/
def abbreviateHome (home path : String) : String :=
  if home = "/" then path
  else if path = home then "~"
  else
    match Text.dropOpening? home path with
    | some rest => if Text.beginsWith "/" rest then "~" ++ rest else path
    | none => path

end PocketShell.Path
