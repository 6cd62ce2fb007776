import PocketShell.Text.Split

/-!
# The text around a cursor

A buffer is lines of text with a cursor in or after one of them. It is held as what lies around the
cursor, so that the cursor always is in the text, and an edit touches only what is next to it.
`lines`, `row` and `col` are the views of it; main statements: `row_lt_length_lines` and
`col_le_length_line`.
-/

namespace PocketShell

/-- Lines of text with a cursor. -/
structure Buffer where
  /-- The lines above the cursor, the nearest first. -/
  above : List (List Char)
  /-- The characters of the line before the cursor, the nearest first. -/
  before : List Char
  /-- The characters of the line from the cursor on. -/
  after : List Char
  /-- The lines below the cursor, the nearest first. -/
  below : List (List Char)
  deriving DecidableEq, Repr

namespace Buffer

/-! ## Views -/

/-- The line that the cursor is in. -/
def line (buffer : Buffer) : List Char :=
  buffer.before.reverse ++ buffer.after

/-- All lines, in order. -/
def lines (buffer : Buffer) : List (List Char) :=
  buffer.above.reverse ++ buffer.line :: buffer.below

/-- The number of lines above the cursor. -/
def row (buffer : Buffer) : Nat :=
  buffer.above.length

/-- The number of characters of the line before the cursor. -/
def col (buffer : Buffer) : Nat :=
  buffer.before.length

/-- The whole text: the lines with a line feed between each two. -/
def content (buffer : Buffer) : String :=
  String.ofList (['\n'].intercalate buffer.lines)

/-- The cursor is in one of the lines. -/
theorem row_lt_length_lines (buffer : Buffer) : buffer.row < buffer.lines.length := by
  simp only [row, lines, List.length_append, List.length_reverse, List.length_cons]
  omega

/-- The cursor is in its line, or right behind the last character of it. -/
theorem col_le_length_line (buffer : Buffer) : buffer.col ≤ buffer.line.length := by
  simp only [col, line, List.length_append, List.length_reverse]
  omega

/-- The line of the cursor is the one that the row points to. -/
theorem getElem?_row_lines (buffer : Buffer) : buffer.lines[buffer.row]? = some buffer.line := by
  simp [row, lines]

/-- The buffer that holds a text, with the cursor at the start. -/
def ofContent (content : String) : Buffer :=
  match content.toList.splitOn '\n' with
  | [] => ⟨[], [], [], []⟩
  | line :: below => ⟨[], [], line, below⟩

/-! ## Movement -/

/-- Puts the cursor into a line that replaces the current one, at a column or at the end if the line
is shorter. -/
def place (col : Nat) (line : List Char) (buffer : Buffer) : Buffer :=
  { buffer with before := (line.take col).reverse, after := line.drop col }

/-- The line that is put in the place of the current one becomes the line of the cursor. -/
theorem line_place (col : Nat) (line : List Char) (buffer : Buffer) :
    (buffer.place col line).line = line := by
  simp [Buffer.line, place]

/-- Of the lines only the current one is replaced. -/
theorem lines_place (col : Nat) (line : List Char) (buffer : Buffer) :
    (buffer.place col line).lines = buffer.above.reverse ++ line :: buffer.below := by
  simp [lines, Buffer.line, place]

/-- One character to the left, within the line. -/
def left (buffer : Buffer) : Buffer :=
  match buffer.before with
  | [] => buffer
  | c :: before => { buffer with before, after := c :: buffer.after }

/-- One character to the right, within the line. -/
def right (buffer : Buffer) : Buffer :=
  match buffer.after with
  | [] => buffer
  | c :: after => { buffer with before := c :: buffer.before, after }

/-- To the line above. -/
def up (buffer : Buffer) : Buffer :=
  match buffer.above with
  | [] => buffer
  | line :: above =>
    { buffer with above, below := buffer.line :: buffer.below }.place buffer.col line

/-- To the line below. -/
def down (buffer : Buffer) : Buffer :=
  match buffer.below with
  | [] => buffer
  | line :: below =>
    { buffer with above := buffer.line :: buffer.above, below }.place buffer.col line

/-- To the start of the line. -/
def lineStart (buffer : Buffer) : Buffer :=
  { buffer with before := [], after := buffer.line }

/-- Past the end of the line. -/
def lineEnd (buffer : Buffer) : Buffer :=
  { buffer with before := buffer.line.reverse, after := [] }

/-- To the last line. -/
def lastLine (buffer : Buffer) : Buffer :=
  match buffer.below.reverse with
  | [] => buffer
  | line :: between =>
    { buffer with above := between ++ buffer.line :: buffer.above, below := [] }.place
      buffer.col line

/-! ## Edits -/

/-- Opens an empty line below and goes there. -/
def openBelow (buffer : Buffer) : Buffer :=
  { buffer with above := buffer.line :: buffer.above, before := [], after := [] }

/-- Opens an empty line above and goes there. -/
def openAbove (buffer : Buffer) : Buffer :=
  { buffer with before := [], after := [], below := buffer.line :: buffer.below }

/-- Puts a line below and goes there. -/
def putBelow (line : List Char) (buffer : Buffer) : Buffer :=
  { buffer with above := buffer.line :: buffer.above }.place buffer.col line

/-- Takes away the character at the cursor; there is none past the end of the line. -/
def deleteChar? (buffer : Buffer) : Option Buffer :=
  match buffer.after with
  | [] => none
  | _ :: after => some { buffer with after }

/-- Takes away the line from the cursor on. -/
def truncateLine (buffer : Buffer) : Buffer :=
  { buffer with after := [] }

/-- Types a character. -/
def insertChar (c : Char) (buffer : Buffer) : Buffer :=
  { buffer with before := c :: buffer.before }

/-- Breaks the line at the cursor, which goes to the start of the second part. -/
def splitLine (buffer : Buffer) : Buffer :=
  { buffer with above := buffer.before.reverse :: buffer.above, before := [] }

/-- Takes away what is before the cursor: a character, or the break between two lines. There is
nothing before the start of the text. -/
def backspace? (buffer : Buffer) : Option Buffer :=
  match buffer.before, buffer.above with
  | _ :: before, _ => some { buffer with before }
  | [], line :: above => some { buffer with above, before := line.reverse }
  | [], [] => none

end Buffer

end PocketShell
