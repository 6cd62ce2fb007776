import PocketShell.Editor.Basic

/-!
# What the editor shows

The lines of the text with the cursor drawn into one of them, and a status line. Insert mode draws
the cursor as a bar between two characters; the other modes put the character at the cursor in
brackets, and a block past the end of the line.
-/

namespace PocketShell.Editor

/-- The cursor and the characters after it. -/
def drawCursor : Mode → List Char → List Char
  | .insert, after => '|' :: after
  | _, c :: after => '[' :: c :: ']' :: after
  | _, [] => ['[', '█', ']']

/-- The lines of the text with the cursor. -/
def rows (editor : Editor) : List String :=
  let buffer := editor.buffer
  let current := buffer.before.reverse ++ drawCursor editor.mode buffer.after
  (buffer.above.reverse ++ current :: buffer.below).map String.ofList

/-- The mode, the mark of unsaved changes, the file, its number of lines, and the cursor counted
from one. -/
def summary (editor : Editor) : String :=
  "-- " ++ editor.mode.label ++ " -- " ++ (if editor.modified then "[+]" else "") ++ " \"" ++
    editor.file ++ "\" " ++ Text.decimal editor.buffer.lines.length ++ "L  " ++
    Text.decimal (editor.buffer.row + 1) ++ "," ++ Text.decimal (editor.buffer.col + 1)

/-- The directive that is being typed, else what the last key led to, else the summary. -/
def statusLine (editor : Editor) : String :=
  match editor.mode, editor.message with
  | .command typed, _ => ":" ++ typed
  | _, some message => message.text
  | _, none => editor.summary

end PocketShell.Editor
