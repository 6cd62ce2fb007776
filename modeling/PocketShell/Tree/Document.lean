import PocketShell.Json.Token
import PocketShell.Tree.Node

/-!
# Trees as JSON

The written form of a node: a file is a string, a directory an object with a member for each entry,
in order, and no spaces. `Node.ofJson?` reads it back with a stack of the directories that are under
way, which may nest `Node.maxNesting` deep; of members with one name the last counts, at the place
of the first.
-/

namespace PocketShell.Node

/-! ## Writing -/

mutual

/-- The written form of a node. -/
def jsonChars : Node → List Char
  | file content => Json.Quoted.encode content.toList
  | directory entries => '\x7b' :: ([','].intercalate (memberChars entries) ++ ['\x7d'])

/-- The written forms of the entries of a directory. -/
def memberChars : List (String × Node) → List (List Char)
  | [] => []
  | (name, node) :: rest =>
    (Json.Quoted.encode name.toList ++ ':' :: node.jsonChars) :: memberChars rest

end

/-- The written form of a node. -/
def toJson (node : Node) : String :=
  String.ofList node.jsonChars

/-! ## Reading -/

/-- The number of directories that may lie in one another in a written node. -/
def maxNesting : Nat := 127

/-- A directory under way: the entries read so far, the latest first, and the name of the entry
whose node is being read. -/
structure Around where
  entries : List (String × Node)
  name : String

/-- Where a reader stands, inside the directories of `around`, the innermost first. -/
inductive Reading where
  /-- Before a node. -/
  | node (around : List Around)
  /-- After the brace that opens a directory. -/
  | opened (around : List Around)
  /-- After a comma. -/
  | next (entries : List (String × Node)) (around : List Around)
  /-- After a name. -/
  | named (entries : List (String × Node)) (name : String) (around : List Around)
  /-- After an entry. -/
  | entry (entries : List (String × Node)) (around : List Around)
  /-- After the outermost node. -/
  | done (node : Node)

/-- Goes on after a node inside the directories that are under way. -/
def Reading.after (node : Node) : List Around → Reading
  | [] => done node
  | inner :: around => entry ((inner.name, node) :: inner.entries) around

/-- Takes the next token, if it may stand here. -/
def Reading.step : Reading → Json.Token → Option Reading
  | node around, .text content => some (after (file content) around)
  | node around, .openBrace =>
    if around.length < maxNesting then some (opened around) else none
  | opened around, .closeBrace => some (after (directory []) around)
  | opened around, .text name => some (named [] name around)
  | next entries around, .text name => some (named entries name around)
  | named entries name around, .colon => some (node (⟨entries, name⟩ :: around))
  | entry entries around, .comma => some (next entries around)
  | entry entries around, .closeBrace => some (after (directory entries.reverse) around)
  | _, _ => none

/-- The node that a list of tokens writes, with each name once. -/
def ofTokens? (tokens : List Json.Token) : Option Node :=
  match tokens.foldlM Reading.step (.node []) with
  | some (.done node) => some node.tidy
  | _ => none

/-- The node that a text writes. -/
def ofJson? (text : String) : Option Node :=
  (Json.Token.ofText? text).bind ofTokens?

end PocketShell.Node
