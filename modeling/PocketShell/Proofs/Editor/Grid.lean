import PocketShell.Editor.Buffer

/-!
# A buffer is a list of lines with two indices

The text around a cursor can also be held as a list of all lines, with the index of the line of the
cursor in it and the column of the cursor in that line. `Grid` is this form. Its operations look a
line up by its index and cut it at a byte, and have no answer if one of these is out of range.
`Buffer.grid` is a buffer in this form, and every grid whose indices are in range is that of one
buffer (`Buffer.exists_grid_eq_iff`, `Buffer.grid_injective`). Main statement:
`Buffer.operate?_grid`, every operation on the grid of a buffer stays in range, and is that
operation of the buffer.
-/

namespace PocketShell

namespace Text

/-- The byte at which a column begins in UTF-8; a column past the end begins where the text ends. -/
def byteOffset : List Char → Nat → Nat
  | [], _ => 0
  | _, 0 => 0
  | c :: cs, col + 1 => c.utf8Size + byteOffset cs col

/-- The characters before a byte and those from it on. A text cannot be cut within a character, nor
after its end. -/
def cutAtByte? : List Char → Nat → Option (List Char × List Char)
  | cs, 0 => some ([], cs)
  | [], _ => none
  | c :: cs, byte =>
    if byte < c.utf8Size then none
    else (cutAtByte? cs (byte - c.utf8Size)).map fun cut => (c :: cut.1, cut.2)

/-- At the byte where a column begins a text can be cut. -/
theorem cutAtByte?_byteOffset (cs : List Char) (col : Nat) :
    cutAtByte? cs (byteOffset cs col) = some (cs.take col, cs.drop col) := by
  induction cs generalizing col with
  | nil => simp [byteOffset, cutAtByte?]
  | cons c cs ih =>
    cases col with
    | zero => simp [byteOffset, cutAtByte?]
    | succ col =>
      have hsize := c.utf8Size_pos
      obtain ⟨byte, hbyte⟩ : ∃ byte, c.utf8Size + byteOffset cs col = byte + 1 :=
        ⟨_, (Nat.sub_add_cancel (by omega)).symm⟩
      rw [byteOffset, hbyte, cutAtByte?, ← hbyte, if_neg (by omega), Nat.add_sub_cancel_left, ih]
      · rfl
      · exact nofun

end Text

/-! ## Operations of a buffer -/

namespace Buffer

/-- An operation of a buffer. -/
inductive Operation where
  | left
  | right
  | up
  | down
  | lineStart
  | lineEnd
  | lastLine
  | openBelow
  | openAbove
  | putBelow (line : List Char)
  | deleteChar
  | truncateLine
  | insertChar (c : Char)
  | splitLine
  | backspace
  deriving DecidableEq, Repr

/-- The buffer after an operation; none if there is nothing to be taken away. -/
def operate? (buffer : Buffer) : Operation → Option Buffer
  | .left => some buffer.left
  | .right => some buffer.right
  | .up => some buffer.up
  | .down => some buffer.down
  | .lineStart => some buffer.lineStart
  | .lineEnd => some buffer.lineEnd
  | .lastLine => some buffer.lastLine
  | .openBelow => some buffer.openBelow
  | .openAbove => some buffer.openAbove
  | .putBelow line => some (buffer.putBelow line)
  | .deleteChar => buffer.deleteChar?
  | .truncateLine => some buffer.truncateLine
  | .insertChar c => some (buffer.insertChar c)
  | .splitLine => some buffer.splitLine
  | .backspace => buffer.backspace?

end Buffer

/-! ## Grids -/

/-- All lines of a text, and a cursor given by two indices. -/
structure Grid where
  lines : List (List Char)
  /-- The index of the line of the cursor. -/
  row : Nat
  /-- The number of characters of that line before the cursor. -/
  col : Nat
  deriving DecidableEq, Repr

namespace Grid

/-- The line of the cursor. -/
def line? (grid : Grid) : Option (List Char) :=
  grid.lines[grid.row]?

/-- The index of the last line. -/
def lastRow? (grid : Grid) : Option Nat :=
  if grid.lines.length = 0 then none else some (grid.lines.length - 1)

/-- The line of the cursor, cut at the byte where the column of the cursor begins. -/
def cut? (grid : Grid) : Option (List Char × List Char) := do
  let line ← grid.line?
  Text.cutAtByte? line (Text.byteOffset line grid.col)

/-- Puts another line in the place of the line of the cursor. -/
def setLine (grid : Grid) (line : List Char) : Grid :=
  { grid with lines := grid.lines.set grid.row line }

/-- Puts a line in at an index, at most behind the last line. -/
def insertLine? (grid : Grid) (index : Nat) (line : List Char) : Option Grid :=
  if grid.lines.length < index then none
  else some { grid with lines := grid.lines.insertIdx index line }

/-- Brings the column back to the end of the line if it is past it. -/
def clamp? (grid : Grid) : Option Grid := do
  let line ← grid.line?
  return { grid with col := min grid.col line.length }

/-- Takes away the character at the cursor, which has to be there. -/
def removeChar? (grid : Grid) : Option Grid := do
  let (before, after) ← grid.cut?
  match after with
  | [] => none
  | _ :: after => return grid.setLine (before ++ after)

/-- Takes away the break between the line of the cursor and the line above. -/
def joinLines? (grid : Grid) : Option Grid := do
  let line ← grid.line?
  let grid := { grid with lines := grid.lines.eraseIdx grid.row, row := grid.row - 1 }
  let above ← grid.line?
  return { grid.setLine (above ++ line) with col := above.length }

/-- Breaks the line at the cursor, which goes to the start of the second part. -/
def splitLine? (grid : Grid) : Option Grid := do
  let (before, after) ← grid.cut?
  let grid ← (grid.setLine before).insertLine? (grid.row + 1) after
  return { grid with row := grid.row + 1, col := 0 }

/-- The grid after an operation, if all that it reads and cuts is in range; and in that, none if
there is nothing to be taken away. -/
def operate? (grid : Grid) : Buffer.Operation → Option (Option Grid)
  | .left => return some { grid with col := grid.col - 1 }
  | .right => do
    let line ← grid.line?
    return some { grid with col := min (grid.col + 1) line.length }
  | .up => some <$> { grid with row := grid.row - 1 }.clamp?
  | .down => do
    let last ← grid.lastRow?
    some <$> { grid with row := min (grid.row + 1) last }.clamp?
  | .lineStart => return some { grid with col := 0 }
  | .lineEnd => do
    let line ← grid.line?
    return some { grid with col := line.length }
  | .lastLine => do
    let last ← grid.lastRow?
    some <$> { grid with row := last }.clamp?
  | .openBelow => do
    let grid ← grid.insertLine? (grid.row + 1) []
    return some { grid with row := grid.row + 1, col := 0 }
  | .openAbove => do
    let grid ← grid.insertLine? grid.row []
    return some { grid with col := 0 }
  | .putBelow line => do
    let grid ← grid.insertLine? (grid.row + 1) line
    some <$> { grid with row := grid.row + 1 }.clamp?
  | .deleteChar => do
    let line ← grid.line?
    if line.length ≤ grid.col then return none
    some <$> grid.removeChar?
  | .truncateLine => do
    let (before, _) ← grid.cut?
    return some (grid.setLine before)
  | .insertChar c => do
    let (before, after) ← grid.cut?
    return some { grid.setLine (before ++ c :: after) with col := grid.col + 1 }
  | .splitLine => some <$> grid.splitLine?
  | .backspace =>
    if grid.col ≠ 0 then some <$> { grid with col := grid.col - 1 }.removeChar?
    else if grid.row ≠ 0 then some <$> grid.joinLines?
    else return none

/-- A line is put in between the lines up to an index and those from it on. -/
theorem insertLine?_of_eq {grid : Grid} {front back : List (List Char)}
    (h : grid.lines = front ++ back) (line : List Char) :
    grid.insertLine? front.length line = some { grid with lines := front ++ line :: back } := by
  have hinsert : ∀ front : List (List Char),
      (front ++ back).insertIdx front.length line = front ++ line :: back := by
    intro front
    induction front with
    | nil => rfl
    | cons first front ih => simp [ih]
  have hlength : ¬ grid.lines.length < front.length := by simp [h]
  rw [insertLine?, if_neg hlength, h, hinsert]

/-! ## A grid around its line -/

/-- The lines `front`, the line of the cursor, and the lines `back`. -/
def around (front : List (List Char)) (line : List Char) (back : List (List Char)) (col : Nat) :
    Grid :=
  ⟨front ++ line :: back, front.length, col⟩

section
variable (front back : List (List Char)) (line other : List Char) (col : Nat)

/-- The line of the cursor is the one in the middle. -/
theorem line?_around : (around front line back col).line? = some line := by
  simp [line?, around]

/-- The line in the middle can be cut at every column: the byte where a column begins is no place
within a character (`Text.cutAtByte?_byteOffset`). -/
theorem cut?_around :
    (around front line back col).cut? = some (line.take col, line.drop col) := by
  rw [cut?, line?_around]
  exact Text.cutAtByte?_byteOffset line col

/-- Another line comes into the middle, and the lines around it stay. -/
theorem setLine_around :
    (around front line back col).setLine other = around front other back col := by
  simp [setLine, around]

/-- The column is brought back to the end of the line in the middle. -/
theorem clamp?_around :
    (around front line back col).clamp? = some (around front line back (min col line.length)) := by
  rw [clamp?, line?_around]
  rfl

end

end Grid

namespace Buffer

open Grid

/-- The buffer as a list of lines with two indices. -/
def grid (buffer : Buffer) : Grid where
  lines := buffer.lines
  row := buffer.row
  col := buffer.col

/-- A text that is opened is split at its line feeds, with both indices zero. -/
theorem grid_ofContent (content : String) :
    (ofContent content).grid = ⟨content.toList.splitOn '\n', 0, 0⟩ := by
  unfold ofContent
  split
  · next hsplit => exact absurd hsplit (List.splitOn_ne_nil _ _)
  · next line below hsplit => rw [hsplit]; rfl

section
variable (buffer : Buffer)

/-- The grid of a buffer has the current line in the middle. -/
theorem grid_eq_around :
    buffer.grid = around buffer.above.reverse buffer.line buffer.below buffer.col := by
  simp [grid, around, lines, row]

/-- Up to the column, the line is what stands before the cursor. -/
theorem take_col_line : buffer.line.take buffer.col = buffer.before.reverse := by
  simp [line, col]

/-- From the column on, the line is what stands after the cursor. -/
theorem drop_col_line : buffer.line.drop buffer.col = buffer.after := by
  simp [line, col]

/-- The line of the cursor is cut into what the buffer has before and after the cursor. -/
theorem cut?_grid : buffer.grid.cut? = some (buffer.before.reverse, buffer.after) := by
  rw [grid_eq_around, cut?_around, take_col_line, drop_col_line]

/-- Bringing a column back to the end of its line is the same as placing the cursor of a buffer
there. -/
theorem clamp?_around_place (col : Nat) (line : List Char) :
    (around buffer.above.reverse line buffer.below col).clamp? =
      some (buffer.place col line).grid := by
  rw [clamp?_around, grid_eq_around, line_place]
  simp [place, Buffer.col]

/-- The column of a buffer is not past the end of its line. -/
theorem clamp?_grid : buffer.grid.clamp? = some buffer.grid := by
  have hcol : min buffer.col buffer.line.length = buffer.col :=
    Nat.min_eq_left buffer.col_le_length_line
  rw [grid_eq_around, clamp?_around, hcol]

/-! ## Movement -/

theorem operate?_grid_left : buffer.grid.operate? .left = some (some buffer.left.grid) := by
  obtain ⟨above, before, after, below⟩ := buffer
  cases before with
  | nil => rfl
  | cons c before => simp [Grid.operate?, left, grid, lines, line, row, col]

theorem operate?_grid_right : buffer.grid.operate? .right = some (some buffer.right.grid) := by
  have hline : buffer.grid.line? = some buffer.line := buffer.getElem?_row_lines
  simp only [Grid.operate?, hline]
  obtain ⟨above, before, after, below⟩ := buffer
  cases after with
  | nil => simp [right, grid, lines, line, row, col]
  | cons c after => simp [right, grid, lines, line, row, col]

theorem operate?_grid_up : buffer.grid.operate? .up = some (some buffer.up.grid) := by
  rw [Grid.operate?]
  cases habove : buffer.above with
  | nil =>
    have hsame : { buffer.grid with row := buffer.grid.row - 1 } = buffer.grid := by
      simp [grid, row, habove]
    rw [hsame, clamp?_grid, up, habove]
    rfl
  | cons next above =>
    have hgrid : { buffer.grid with row := buffer.grid.row - 1 } =
        around above.reverse next (buffer.line :: buffer.below) buffer.col := by
      simp [grid, around, lines, row, habove]
    rw [hgrid, clamp?_around_place { buffer with above, below := buffer.line :: buffer.below }, up,
      habove]
    rfl

theorem operate?_grid_down : buffer.grid.operate? .down = some (some buffer.down.grid) := by
  rw [Grid.operate?]
  cases hbelow : buffer.below with
  | nil =>
    have hlast : buffer.grid.lastRow? = some buffer.grid.row := by
      simp [lastRow?, grid, lines, row, hbelow]
    have hsame : { buffer.grid with row := min (buffer.grid.row + 1) buffer.grid.row } =
        buffer.grid := by simp
    simp only [hlast, hsame, clamp?_grid, down, hbelow, Option.bind_eq_bind, Option.bind_some]
    rfl
  | cons next below =>
    have hlast : buffer.grid.lastRow? = some (buffer.grid.row + 1 + below.length) := by
      simp [lastRow?, grid, lines, row, hbelow]
      omega
    have hgrid : { buffer.grid with
          row := min (buffer.grid.row + 1) (buffer.grid.row + 1 + below.length) } =
        around (buffer.line :: buffer.above).reverse next below buffer.col := by
      simp [grid, around, lines, row, hbelow]
    simp only [hlast, hgrid, Option.bind_eq_bind, Option.bind_some, down, hbelow,
      clamp?_around_place { buffer with above := buffer.line :: buffer.above, below }]
    rfl

theorem operate?_grid_lineEnd :
    buffer.grid.operate? .lineEnd = some (some buffer.lineEnd.grid) := by
  have hline : buffer.grid.line? = some buffer.line := buffer.getElem?_row_lines
  simp only [Grid.operate?, hline]
  simp [lineEnd, grid, lines, line, row, col, Nat.add_comm]

theorem operate?_grid_lastLine :
    buffer.grid.operate? .lastLine = some (some buffer.lastLine.grid) := by
  rw [Grid.operate?]
  rcases hbelow : buffer.below.reverse with _ | ⟨last, between⟩
  · have hnone : buffer.below = [] := List.reverse_eq_nil_iff.mp hbelow
    have hlast : buffer.grid.lastRow? = some buffer.grid.row := by
      simp [lastRow?, grid, lines, row, hnone]
    have hsame : { buffer.grid with row := buffer.grid.row } = buffer.grid := rfl
    simp only [hlast, hsame, clamp?_grid, lastLine, hbelow, Option.bind_eq_bind, Option.bind_some]
    rfl
  · have hsplit : buffer.below = between.reverse ++ [last] := by
      rw [← List.reverse_reverse buffer.below, hbelow, List.reverse_cons]
    have hlast : buffer.grid.lastRow? = some (buffer.grid.row + 1 + between.length) := by
      simp [lastRow?, grid, lines, row, hsplit]
      omega
    have hgrid : { buffer.grid with row := buffer.grid.row + 1 + between.length } =
        around (between ++ buffer.line :: buffer.above).reverse last [] buffer.col := by
      simp [grid, around, lines, row, hsplit]
      omega
    simp only [hlast, hgrid, Option.bind_eq_bind, Option.bind_some, lastLine, hbelow,
      clamp?_around_place
        { buffer with above := between ++ buffer.line :: buffer.above, below := [] }]
    rfl

/-! ## Edits -/

/-- A line can be put in before the current one. -/
theorem insertLine?_grid_row (other : List Char) :
    buffer.grid.insertLine? buffer.grid.row other = some { buffer.grid with
      lines := buffer.above.reverse ++ other :: buffer.line :: buffer.below } := by
  have hlines : buffer.grid.lines = buffer.above.reverse ++ buffer.line :: buffer.below := rfl
  have hinsert := insertLine?_of_eq hlines other
  rwa [List.length_reverse] at hinsert

/-- A line can be put in behind the current one. -/
theorem insertLine?_grid_next (other : List Char) :
    buffer.grid.insertLine? (buffer.grid.row + 1) other = some { buffer.grid with
      lines := buffer.above.reverse ++ buffer.line :: other :: buffer.below } := by
  have hlines : buffer.grid.lines = (buffer.above.reverse ++ [buffer.line]) ++ buffer.below := by
    simp [grid, lines]
  have hinsert := insertLine?_of_eq hlines other
  rwa [List.length_append, List.length_reverse, List.append_assoc] at hinsert

/-- Another line in the place of the current one has the same lines around it. -/
theorem setLine_grid (other : List Char) : buffer.grid.setLine other =
    { buffer.grid with lines := buffer.above.reverse ++ other :: buffer.below } := by
  simp [setLine, grid, lines, row]

/-- A line opened below: the index behind the current line is in range. -/
theorem operate?_grid_openBelow :
    buffer.grid.operate? .openBelow = some (some buffer.openBelow.grid) := by
  simp only [Grid.operate?, insertLine?_grid_next, Option.bind_eq_bind, Option.bind_some]
  simp [openBelow, grid, lines, line, row, col]

/-- A line opened above: the index of the current line is in range. -/
theorem operate?_grid_openAbove :
    buffer.grid.operate? .openAbove = some (some buffer.openAbove.grid) := by
  simp only [Grid.operate?, insertLine?_grid_row, Option.bind_eq_bind, Option.bind_some]
  simp [openAbove, grid, lines, line, row, col]

/-- A line put below: the column is brought back to the end of the new line. -/
theorem operate?_grid_putBelow (other : List Char) :
    buffer.grid.operate? (.putBelow other) = some (some (buffer.putBelow other).grid) := by
  have hgrid : { buffer.grid with
        lines := buffer.above.reverse ++ buffer.line :: other :: buffer.below,
        row := buffer.grid.row + 1 } =
      around (buffer.line :: buffer.above).reverse other buffer.below buffer.col := by
    simp [grid, around, row]
  simp only [Grid.operate?, insertLine?_grid_next, Option.bind_eq_bind, Option.bind_some, hgrid,
    clamp?_around_place { buffer with above := buffer.line :: buffer.above }]
  rfl

/-- If the cursor is not at the end of the line, then the character at it is taken away. -/
theorem removeChar?_grid {c : Char} {after : List Char} (h : buffer.after = c :: after) :
    buffer.grid.removeChar? = some { buffer with after }.grid := by
  have hset := buffer.setLine_grid (buffer.before.reverse ++ after)
  simp only [removeChar?, cut?_grid, h, Option.bind_eq_bind, Option.bind_some, hset]
  simp [grid, lines, line, row, col]

/-- Deleting a character: the comparison of the column with the length of the line keeps it off the
end of the line. -/
theorem operate?_grid_deleteChar :
    buffer.grid.operate? .deleteChar = some (buffer.deleteChar?.map grid) := by
  have hline : buffer.grid.line? = some buffer.line := buffer.getElem?_row_lines
  simp only [Grid.operate?, hline, Option.bind_eq_bind, Option.bind_some]
  cases hafter : buffer.after with
  | nil =>
    have hend : buffer.line.length ≤ buffer.grid.col := by simp [line, grid, col, hafter]
    rw [if_pos hend, deleteChar?, hafter]
    rfl
  | cons c after =>
    have hinside : ¬ buffer.line.length ≤ buffer.grid.col := by simp [line, grid, col, hafter]
    rw [if_neg hinside, removeChar?_grid buffer hafter, deleteChar?, hafter]
    rfl

/-- Cutting a line off: the byte of the cursor is no place within a character. -/
theorem operate?_grid_truncateLine :
    buffer.grid.operate? .truncateLine = some (some buffer.truncateLine.grid) := by
  simp only [Grid.operate?, cut?_grid, Option.bind_eq_bind, Option.bind_some, setLine_grid]
  simp [truncateLine, grid, lines, line, row, col]

/-- Inserting a character: the byte of the cursor is no place within a character, and the column
goes on by one character. -/
theorem operate?_grid_insertChar (c : Char) :
    buffer.grid.operate? (.insertChar c) = some (some (buffer.insertChar c).grid) := by
  simp only [Grid.operate?, cut?_grid, Option.bind_eq_bind, Option.bind_some, setLine_grid]
  simp [insertChar, grid, lines, line, row, col]

/-- Breaking a line: the second part is put in behind the current line. -/
theorem operate?_grid_splitLine :
    buffer.grid.operate? .splitLine = some (some buffer.splitLine.grid) := by
  have hbefore : buffer.grid.setLine buffer.before.reverse =
      grid { buffer with after := [] } := by
    rw [setLine_grid]
    simp [grid, lines, line, row, col]
  have hrow : buffer.grid.row = (grid { buffer with after := [] }).row := rfl
  simp only [Grid.operate?, Grid.splitLine?, cut?_grid, Option.bind_eq_bind, Option.bind_some,
    hbefore, hrow, insertLine?_grid_next]
  simp [splitLine, grid, lines, line, row, col]

/-- At the start of a line that has one above it, the two become one line with the cursor between
them. -/
theorem joinLines?_grid {previous : List Char} {above : List (List Char)}
    (habove : buffer.above = previous :: above) (hbefore : buffer.before = []) :
    buffer.grid.joinLines? =
      some (grid { buffer with above, before := previous.reverse }) := by
  have hline : buffer.grid.line? = some buffer.line := buffer.getElem?_row_lines
  have hjoined : { buffer.grid with
        lines := buffer.grid.lines.eraseIdx buffer.grid.row, row := buffer.grid.row - 1 } =
      around above.reverse previous buffer.below buffer.col := by
    simp [grid, around, lines, row, habove, List.eraseIdx_append_of_length_le]
  simp only [joinLines?, hline, Option.bind_eq_bind, Option.bind_some, hjoined, line?_around,
    setLine_around]
  simp [around, grid, lines, line, row, col, hbefore]

/-- Backspace: within a line it takes a character, at its start it joins lines, and in the first
line there it does nothing. -/
theorem operate?_grid_backspace :
    buffer.grid.operate? .backspace = some (buffer.backspace?.map grid) := by
  rw [Grid.operate?]
  cases hbefore : buffer.before with
  | cons c before =>
    have hcol : buffer.grid.col ≠ 0 := by simp [grid, col, hbefore]
    have hleft : { buffer.grid with col := buffer.grid.col - 1 } =
        grid { buffer with before, after := c :: buffer.after } := by
      simp [grid, lines, line, row, col, hbefore]
    rw [if_pos hcol, hleft, removeChar?_grid _ rfl, backspace?, hbefore]
    rfl
  | nil =>
    have hcol : ¬ buffer.grid.col ≠ 0 := by simp [grid, col, hbefore]
    rw [if_neg hcol]
    cases habove : buffer.above with
    | cons previous above =>
      have hrow : buffer.grid.row ≠ 0 := by simp [grid, row, habove]
      rw [if_pos hrow, joinLines?_grid buffer habove hbefore, backspace?, hbefore, habove]
      rfl
    | nil =>
      have hrow : ¬ buffer.grid.row ≠ 0 := by simp [grid, row, habove]
      rw [if_neg hrow, backspace?, hbefore, habove]
      rfl

end

/-- **No index and no byte is out of range.** Every operation on a buffer as a list of lines with
two indices has an answer, which is that of the operation on the buffer. -/
theorem operate?_grid (buffer : Buffer) (operation : Operation) :
    buffer.grid.operate? operation = some ((buffer.operate? operation).map grid) := by
  cases operation with
  | left => exact buffer.operate?_grid_left
  | right => exact buffer.operate?_grid_right
  | up => exact buffer.operate?_grid_up
  | down => exact buffer.operate?_grid_down
  | lineStart => simp [Grid.operate?, operate?, lineStart, grid, lines, line, row, col]
  | lineEnd => exact buffer.operate?_grid_lineEnd
  | lastLine => exact buffer.operate?_grid_lastLine
  | openBelow => exact buffer.operate?_grid_openBelow
  | openAbove => exact buffer.operate?_grid_openAbove
  | putBelow line => exact buffer.operate?_grid_putBelow line
  | deleteChar => exact buffer.operate?_grid_deleteChar
  | truncateLine => exact buffer.operate?_grid_truncateLine
  | insertChar c => exact buffer.operate?_grid_insertChar c
  | splitLine => exact buffer.operate?_grid_splitLine
  | backspace => exact buffer.operate?_grid_backspace

/-! ## Which grids are those of buffers -/

/-- A buffer is nothing but its lines and the two indices. -/
theorem grid_injective : Function.Injective grid := by
  rintro ⟨above, before, after, below⟩ ⟨above', before', after', below'⟩ h
  obtain ⟨hlines, hrow, hcol⟩ := Grid.mk.inj h
  simp only [row, col] at hrow hcol
  obtain ⟨habove, hrest⟩ := List.append_inj hlines (by simpa using hrow)
  obtain ⟨hline, hbelow⟩ := List.cons.inj hrest
  obtain ⟨hbefore, hafter⟩ := List.append_inj hline (by simpa using hcol)
  rw [mk.injEq]
  exact ⟨List.reverse_inj.mp habove, List.reverse_inj.mp hbefore, hafter, hbelow⟩

/-- The grids of buffers are those whose indices are in range, the column at most behind the last
character of its line. -/
theorem exists_grid_eq_iff {grid : Grid} :
    (∃ buffer : Buffer, buffer.grid = grid) ↔
      ∃ line, grid.lines[grid.row]? = some line ∧ grid.col ≤ line.length := by
  constructor
  · rintro ⟨buffer, rfl⟩
    exact ⟨buffer.line, buffer.getElem?_row_lines, buffer.col_le_length_line⟩
  · rintro ⟨line, hline, hcol⟩
    obtain ⟨lines, row, col⟩ := grid
    obtain ⟨hrow, rfl⟩ := List.getElem?_eq_some_iff.mp hline
    have hlines : lines.take row ++ lines[row] :: lines.drop (row + 1) = lines := by
      rw [List.getElem_cons_drop, List.take_append_drop]
    -- The lines are cut around the row, and that line at the column.
    refine ⟨⟨(lines.take row).reverse, (lines[row].take col).reverse, lines[row].drop col,
      lines.drop (row + 1)⟩, ?_⟩
    simp only [Buffer.grid, Buffer.lines, Buffer.line, Buffer.row, Buffer.col,
      List.reverse_reverse, List.take_append_drop, hlines, List.length_reverse]
    rw [List.length_take_of_le (Nat.le_of_lt hrow), List.length_take_of_le hcol]

end Buffer

end PocketShell
