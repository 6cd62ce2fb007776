import PocketShell.Command.Error
import PocketShell.Text.Split
import PocketShell.Tree.Edit

/-!
# Command lines

A line is a name, arguments and at most one redirection, separated by blanks. The last `>>` after
the name redirects, or the last `>` if there is none; what follows it up to the end of the line,
without the blanks around it, is the target. `Line.print` writes a line with single spaces.
-/

namespace PocketShell

/-- Where the output of a line goes, and what becomes of what is there. -/
structure Redirect where
  target : String
  mode : WriteMode
  deriving DecidableEq, Repr

/-- A command line. -/
structure Line where
  name : String
  args : List String
  redirect : Option Redirect
  deriving DecidableEq, Repr

namespace Line

/-- The last operator among the characters after a name: what stands before and after it, and the
mode that it asks for. -/
def cutOperator? (cs : List Char) : Option (List Char × List Char × WriteMode) :=
  match Text.cutLast ['>', '>'] cs with
  | some (before, after) => some (before, after, .append)
  | none => (Text.cutLast ['>'] cs).map fun cut => (cut.1, cut.2, .overwrite)

/-- The line that a name and the characters after it make. -/
def ofParts (name rest : List Char) : Except CommandError Line :=
  match cutOperator? rest with
  | none => .ok ⟨String.ofList name, (Text.wordLists rest).map String.ofList, none⟩
  | some (before, after, mode) =>
    match Text.dropBlankEnd (Text.dropBlank after) with
    | [] => .error .missingRedirectTarget
    | target =>
      .ok ⟨String.ofList name, (Text.wordLists before).map String.ofList,
        some ⟨String.ofList target, mode⟩⟩

/-- The line that a text makes; a blank text makes none. -/
def parse (input : String) : Except CommandError (Option Line) :=
  let cs := Text.dropBlank input.toList
  match cs.takeWhile (!Text.isBlank ·) with
  | [] => .ok none
  | name => (ofParts name (cs.dropWhile (!Text.isBlank ·))).map some

/-- The mark of a redirection. -/
def operator : WriteMode → String
  | .overwrite => ">"
  | .append => ">>"

/-- The line as text. -/
def print (line : Line) : String :=
  line.name ++ String.join (line.args.map (" " ++ ·)) ++
    match line.redirect with
    | none => ""
    | some redirect => " " ++ operator redirect.mode ++ " " ++ redirect.target

example : parse "echo a>b>> out >>> log " =
    .ok (some ⟨"echo", ["a>b>>", "out", ">"], some ⟨"log", .append⟩⟩) := rfl

end Line

end PocketShell
