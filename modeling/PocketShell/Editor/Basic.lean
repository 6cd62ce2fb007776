import PocketShell.Editor.Buffer
import PocketShell.Editor.Key
import PocketShell.Text.Blank
import PocketShell.Text.Column

/-!
# The editor

A modal editor of one file. `Editor.press` takes a key: in normal mode keys move and edit, in insert
mode they are typed, and in command mode they make up a directive, which the enter key carries out.
What the editor wants done outside it answers as signals, in order: a text to be saved, and the end.
-/

namespace PocketShell

namespace Editor

/-- What keys do. -/
inductive Mode where
  /-- Keys move and edit. -/
  | normal
  /-- Keys are typed into the text. -/
  | insert
  /-- Keys are typed into a directive. -/
  | command (typed : String)
  deriving DecidableEq, Repr

namespace Mode

/-- The name of a mode. -/
def label : Mode → String
  | normal => "NORMAL"
  | insert => "INSERT"
  | command _ => "COMMAND"

/-- The directive typed so far. -/
def pending : Mode → String
  | command typed => typed
  | _ => ""

end Mode

/-- What command mode can be told to do. -/
inductive Directive where
  /-- Save the text. -/
  | write
  /-- Close the editor; unsaved changes are in the way unless they are to be discarded. -/
  | quit (discard : Bool)
  /-- Save the text and close the editor. -/
  | writeQuit
  deriving DecidableEq, Repr

/-- The directives by what is typed for them. -/
def Directive.table : List (String × Directive) :=
  [("w", write), ("q", quit false), ("q!", quit true), ("wq", writeQuit), ("x", writeQuit)]

/-- What the editor tells the user. -/
inductive Message where
  /-- The current line is kept for putting. -/
  | yanked
  /-- The text of a file, of so many lines, went to be saved. -/
  | written (file : String) (lines : Nat)
  /-- The editor stays open, because there are unsaved changes. -/
  | unsavedChanges
  /-- What was typed is no directive. -/
  | unknownDirective (typed : String)
  deriving DecidableEq, Repr

/-- The wording of a message. -/
def Message.text : Message → String
  | yanked => "yanked line"
  | written file lines => "\"" ++ file ++ "\" " ++ Text.decimal lines ++ "L written"
  | unsavedChanges => "No write since last change (add ! to override)"
  | unknownDirective typed => "Not an editor command: " ++ typed

/-- What the editor wants done outside. -/
inductive Signal where
  /-- The content is to become that of the file. -/
  | save (file content : String)
  /-- The editor is closed. -/
  | exit
  deriving DecidableEq, Repr

end Editor

/-- A modal editor of one file. -/
structure Editor where
  /-- The path of the file. -/
  file : String
  buffer : Buffer
  mode : Editor.Mode
  /-- The line that is kept for putting. -/
  yank : Option (List Char)
  /-- There may be changes that were not saved. -/
  modified : Bool
  /-- What the last key led to. -/
  message : Option Editor.Message
  closed : Bool
  deriving DecidableEq, Repr

namespace Editor

/-- The editor of a file with a content, as it opens. -/
def start (file content : String) : Editor where
  file := file
  buffer := .ofContent content
  mode := .normal
  yank := none
  modified := false
  message := none
  closed := false

/-! ## Saving and closing -/

/-- Has the text saved. -/
def save (editor : Editor) : List Signal × Editor :=
  ([.save editor.file editor.buffer.content], { editor with modified := false })

/-- Closes the editor. -/
def close (editor : Editor) : List Signal × Editor :=
  ([.exit], { editor with closed := true })

/-- Carries out a directive. -/
def carryOut (editor : Editor) : Directive → List Signal × Editor
  | .write =>
    (editor.save.1,
      { editor.save.2 with message := some (.written editor.file editor.buffer.lines.length) })
  | .quit false =>
    if editor.modified then ([], { editor with message := some .unsavedChanges }) else editor.close
  | .quit true => editor.close
  | .writeQuit => (editor.save.1 ++ editor.save.2.close.1, editor.save.2.close.2)

/-! ## Keys -/

/-- The editor with another cursor. -/
def move (editor : Editor) (go : Buffer → Buffer) : Editor :=
  { editor with buffer := go editor.buffer }

/-- The editor with another text. -/
def change (editor : Editor) (edit : Buffer → Buffer) : Editor :=
  { editor with buffer := edit editor.buffer, modified := true }

/-- The editor with another text, if there is something to be changed. -/
def change? (editor : Editor) (edit : Buffer → Option Buffer) : Editor :=
  match edit editor.buffer with
  | some buffer => { editor with buffer, modified := true }
  | none => editor

/-- The editor after a key in normal mode. -/
def pressNormal (editor : Editor) : Key → Editor
  | .char 'h' | .left => editor.move Buffer.left
  | .char 'j' | .down => editor.move Buffer.down
  | .char 'k' | .up => editor.move Buffer.up
  | .char 'l' | .right => editor.move Buffer.right
  | .char '0' => editor.move Buffer.lineStart
  | .char '$' => editor.move Buffer.lineEnd
  | .char 'G' => editor.move Buffer.lastLine
  | .char 'i' => { editor with mode := .insert }
  | .char 'a' => { editor.move Buffer.right with mode := .insert }
  | .char 'o' => { editor.change Buffer.openBelow with mode := .insert }
  | .char 'O' => { editor.change Buffer.openAbove with mode := .insert }
  | .char 'x' => editor.change? Buffer.deleteChar?
  | .char 'D' => editor.change Buffer.truncateLine
  | .char 'Y' => { editor with yank := some editor.buffer.line, message := some .yanked }
  | .char 'p' =>
    match editor.yank with
    | some line => editor.change (Buffer.putBelow line)
    | none => editor
  | .char ':' => { editor with mode := .command "" }
  | _ => editor

/-- The editor after a key in insert mode. -/
def pressInsert (editor : Editor) : Key → Editor
  | .escape => { editor.move Buffer.left with mode := .normal }
  | .enter => editor.change Buffer.splitLine
  | .backspace => editor.change? Buffer.backspace?
  | .left => editor.move Buffer.left
  | .right => editor.move Buffer.right
  | .up => editor.move Buffer.up
  | .down => editor.move Buffer.down
  | .char c => if Text.isControl c then editor else editor.change (Buffer.insertChar c)

/-- What a key in command mode comes to, after `typed`. -/
def pressCommand (editor : Editor) (typed : String) : Key → List Signal × Editor
  | .escape => ([], { editor with mode := .normal })
  | .enter =>
    match Directive.table.lookup typed with
    | some directive => { editor with mode := .normal }.carryOut directive
    | none => ([], { editor with mode := .normal, message := some (.unknownDirective typed) })
  | .backspace =>
    match typed.toList with
    | [] => ([], { editor with mode := .normal })
    | c :: cs => ([], { editor with mode := .command (String.ofList (c :: cs).dropLast) })
  | .char c =>
    if Text.isControl c then ([], editor)
    else ([], { editor with mode := .command (typed.push c) })
  | _ => ([], editor)

/-- What a key comes to: the signals, and the editor after it. A closed editor takes no keys. -/
def press (editor : Editor) (key : Key) : List Signal × Editor :=
  if editor.closed then ([], editor)
  else
    let editor := { editor with message := none }
    match editor.mode with
    | .normal => ([], editor.pressNormal key)
    | .insert => ([], editor.pressInsert key)
    | .command typed => editor.pressCommand typed key

/-- What keys come to, one after another. -/
def pressAll (editor : Editor) : List Key → List Signal × Editor
  | [] => ([], editor)
  | key :: keys =>
    let pressed := editor.press key
    let others := pressed.2.pressAll keys
    (pressed.1 ++ others.1, others.2)

end Editor

end PocketShell
