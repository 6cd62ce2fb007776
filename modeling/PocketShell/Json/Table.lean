import PocketShell.Json.Token

/-!
# Tables as JSON

Objects whose members are strings: read from any spelling, and written with one member a line,
indented by two spaces.
-/

namespace PocketShell.Json.Table

/-- The members of an object after its opening brace, at least one. -/
def members? : List Token → Option (List (String × String))
  | .text name :: .colon :: .text value :: .comma :: rest =>
    (members? rest).map ((name, value) :: ·)
  | [.text name, .colon, .text value, .closeBrace] => some [(name, value)]
  | _ => none

/-- The members of the object that a text writes, in order. -/
def read? (text : String) : Option (List (String × String)) :=
  match Token.ofText? text with
  | some [.openBrace, .closeBrace] => some []
  | some (.openBrace :: tokens) => members? tokens
  | _ => none

/-- The line of one member, without a line feed. -/
def memberLine (member : String × String) : String :=
  "  " ++ quote member.1 ++ ": " ++ quote member.2

/-- The written form of an object. -/
def write : List (String × String) → String
  | [] => "\x7b\x7d"
  | members => "\x7b\n" ++ ",\n".intercalate (members.map memberLine) ++ "\n\x7d"

end PocketShell.Json.Table
