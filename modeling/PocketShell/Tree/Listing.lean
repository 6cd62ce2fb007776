import PocketShell.Tree.FileSystem

/-!
# Drawing a tree

The rows that show what lies below a directory, children indented under their directory and joined
to it by box-drawing lines. `Node.outline` draws a node by going down it. `FileSystem.drawing?`
draws what lies below a path by following the path of each child from the root again; names that are
no plain components may lead it elsewhere, even round in a circle.
-/

namespace PocketShell

/-- What joins a row to its directory; `last` marks the last child. -/
def connector (last : Bool) : String :=
  if last then "└── " else "├── "

/-- What stands before the rows below a child, in the columns of its connector. -/
def margin (last : Bool) : String :=
  if last then "    " else "│   "

namespace Node

mutual

/-- The rows for what lies below a node, each after `indent`. -/
def outline (indent : String) : Node → List String
  | file _ => []
  | directory entries => outlineEntries indent entries

/-- The rows for some entries, the last of which ends their directory. -/
def outlineEntries (indent : String) : List (String × Node) → List String
  | [] => []
  | (name, node) :: rest =>
    (indent ++ connector rest.isEmpty ++ (Listed.mk name node.isDirectory).display) ::
      (node.outline (indent ++ margin rest.isEmpty) ++ outlineEntries indent rest)

end

end Node

namespace FileSystem

/-- The rows of a listing one after another, with what `below` gives for each directory. -/
def drawRows (indent : String) (below : String → String → Option (List String)) :
    List Listed → Option (List String)
  | [] => some []
  | row :: rest => do
    let lower ←
      if row.isDirectory then below row.name (indent ++ margin rest.isEmpty) else some []
    let others ← drawRows indent below rest
    some ((indent ++ connector rest.isEmpty ++ row.display) :: (lower ++ others))

/-- The rows for what lies below a path, going down `bound` directories at most; `none` if that is
not enough. Where no directory is found there are no rows. -/
def drawBelow (fs : FileSystem) : (bound : Nat) → (path indent : String) → Option (List String)
  | 0, _, _ => none
  | bound + 1, path, indent =>
    match fs.list path with
    | .error _ => some []
    | .ok rows =>
      drawRows indent (fun name => fs.drawBelow bound (Path.resolve path name)) rows

/-- The path with a slash and the rows for what lies below it, `none` if they have no end: a way
down that passes more directories than the tree has nodes goes round in a circle. -/
def drawing? (fs : FileSystem) (path : String) : Option (List String) :=
  (fs.drawBelow (fs.root.size + 1) path "").map ((if path = "/" then "/" else path ++ "/") :: ·)

end FileSystem

end PocketShell
