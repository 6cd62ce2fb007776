import PocketShell.Command.Basic
import PocketShell.Path.Home
import PocketShell.Tree.FileSystem

/-!
# Completion

What the last word of a line may become. A line of one word, finished or not, is completed to the
name of a command, a later word to the path of an entry. `Completion.extend` writes out what all
candidates have in common, or the only one in full.
-/

namespace PocketShell

namespace Completion

/-- What is completed. -/
inductive Kind where
  | command
  | path
  deriving DecidableEq, Repr

end Completion

/-- The candidates for the last word of a line. -/
structure Completion where
  kind : Completion.Kind
  /-- The names that the last name of the word may become; a directory has a slash. -/
  candidates : List String
  /-- The word as it was typed. -/
  fragment : String
  deriving DecidableEq, Repr

namespace Completion

/-! ## What candidates have in common -/

/-- The longest list that both begin with. -/
def commonPart : List Char → List Char → List Char
  | a :: as, b :: bs => if a = b then a :: commonPart as bs else []
  | _, _ => []

/-- The longest text that all begin with; nothing if there is none. -/
def commonOpening : List String → String
  | [] => ""
  | first :: others =>
    String.ofList (others.foldl (fun common other => commonPart common other.toList) first.toList)

/-! ## Extending a line -/

/-- The characters of a path up to the last slash, and the name after it. -/
def splitName (cs : List Char) : List Char × List Char :=
  ((cs.reverse.dropWhile (· != '/')).reverse, (cs.reverse.takeWhile (· != '/')).reverse)

/-- The part of the word that stays as it was typed. -/
def kept (completion : Completion) : String :=
  match completion.kind with
  | .command => ""
  | .path => String.ofList (splitName completion.fragment.toList).1

/-- What the last name of the word is completed to, if there are candidates. -/
def completed? (completion : Completion) : Option String :=
  match completion.candidates with
  | [] => none
  | [only] => some (if Text.endsWith "/" only then only else only ++ " ")
  | candidates => some (commonOpening candidates)

/-- The line with its last word extended as far as the candidates allow; it never gets shorter. -/
def extend (completion : Completion) (input : String) : String :=
  match Text.dropEnding? completion.fragment input, completion.completed? with
  | some line, some completed =>
    let extended := line ++ completion.kept ++ completed
    if extended.utf8ByteSize < input.utf8ByteSize then input else extended
  | _, _ => input

/-! ## Finding candidates -/

/-- The characters after the last blank. -/
def lastWord (cs : List Char) : List Char :=
  (cs.reverse.takeWhile (!Text.isBlank ·)).reverse

/-- The names of commands that begin with a word. -/
def ofCommandName (word : String) : Completion where
  kind := .command
  candidates := Command.names.filter (Text.beginsWith word)
  fragment := word

/-- The directory in which the last name of a word is sought. -/
def searched (directory home way : String) : String :=
  if way = "" then directory else Path.resolve directory (Path.expandHome home way)

/-- The entries whose path a word begins. -/
def ofPath (files : FileSystem) (directory home word : String) : Completion :=
  let way := String.ofList (splitName word.toList).1
  let name := String.ofList (splitName word.toList).2
  { kind := .path
    candidates :=
      match files.list (searched directory home way) with
      | .ok rows => (rows.filter fun row => Text.beginsWith name row.name).map Listed.display
      | .error _ => []
    fragment := word }

/-- The candidates for the last word of a line, which is empty after a blank. -/
def ofInput (files : FileSystem) (directory home input : String) : Completion :=
  let line := Text.dropBlank input.toList
  if line.any Text.isBlank then ofPath files directory home (String.ofList (lastWord line))
  else ofCommandName (String.ofList line)

end Completion

end PocketShell
