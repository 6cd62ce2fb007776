import Mathlib.Logic.ExistsUnique
import PocketShell.Editor.Buffer

/-!
# A buffer is one text with a cursor

A buffer holds lines around a cursor. `FlatText` is the same in one piece: a text, line feeds
included, and a number of characters before the cursor. `Buffer.flat` is this view of a buffer, and
`Buffer.Shows` says that a buffer with no line feed in its lines has it. Main statement:
`Buffer.shows_edits`, every edit of a buffer is one of the flat text, and every movement leaves the
text alone.
-/

namespace PocketShell

/-! ## Flat texts -/

/-- A text in one piece, and the number of its characters before the cursor. -/
structure FlatText where
  text : List Char
  cursor : Nat
  deriving DecidableEq, Repr

namespace FlatText

/-- The place after the last line feed before the cursor; without one, the start of the text. -/
def lineStart (flat : FlatText) : Nat :=
  flat.cursor - ((flat.text.take flat.cursor).reverse.takeWhile (· != '\n')).length

/-- The place of the first line feed from the cursor on; without one, the end of the text. -/
def lineEnd (flat : FlatText) : Nat :=
  flat.cursor + ((flat.text.drop flat.cursor).takeWhile (· != '\n')).length

/-- The text with characters put in at a place, and the cursor at another. -/
def insert (flat : FlatText) (place : Nat) (cs : List Char) (cursor : Nat) : FlatText where
  text := flat.text.take place ++ cs ++ flat.text.drop place
  cursor := cursor

/-- Puts a character in at the cursor, which goes behind it. -/
def type (flat : FlatText) (c : Char) : FlatText :=
  flat.insert flat.cursor [c] (flat.cursor + 1)

/-- Takes away the character before the cursor; there is none before the start of the text. -/
def backspace? (flat : FlatText) : Option FlatText :=
  if flat.cursor = 0 then none
  else some ⟨flat.text.eraseIdx (flat.cursor - 1), flat.cursor - 1⟩

/-- Takes away the character at the cursor, unless the line or the text ends there. -/
def delete? (flat : FlatText) : Option FlatText :=
  if flat.text[flat.cursor]? = none ∨ flat.text[flat.cursor]? = some '\n' then none
  else some ⟨flat.text.eraseIdx flat.cursor, flat.cursor⟩

/-- Takes away what lies between the cursor and the end of its line. -/
def truncate (flat : FlatText) : FlatText where
  text := flat.text.take flat.cursor ++ flat.text.drop flat.lineEnd
  cursor := flat.cursor

/-- Puts a line feed in at the end of the line, and goes behind it. -/
def openBelow (flat : FlatText) : FlatText :=
  flat.insert flat.lineEnd ['\n'] (flat.lineEnd + 1)

/-- Puts a line feed in at the start of the line, and stays before it. -/
def openAbove (flat : FlatText) : FlatText :=
  flat.insert flat.lineStart ['\n'] flat.lineStart

/-- Puts a line in behind the line of the cursor, and goes to the same column of it, or to its end
if it is shorter. -/
def putBelow (flat : FlatText) (line : List Char) : FlatText :=
  flat.insert flat.lineEnd ('\n' :: line)
    (flat.lineEnd + 1 + min (flat.cursor - flat.lineStart) line.length)

/-! ## A cursor between two parts of a text -/

/-- The text with the cursor between two parts. -/
def between (before after : List Char) : FlatText where
  text := before ++ after
  cursor := before.length

/-- No line goes on into these characters: there are none, or a line feed comes first. -/
def Ends (cs : List Char) : Prop :=
  cs.head? = none ∨ cs.head? = some '\n'

/-- Characters that are put in where a text is parted stand between the parts. -/
theorem insert_of_eq {flat : FlatText} {before after : List Char} {place : Nat}
    (htext : flat.text = before ++ after) (hplace : place = before.length) (cs : List Char)
    (cursor : Nat) : flat.insert place cs cursor = ⟨before ++ cs ++ after, cursor⟩ := by
  simp [insert, htext, hplace]

section
variable (before after : List Char)

/-- A character that is typed comes to the part before the cursor. -/
theorem type_between (c : Char) :
    (between before after).type c = between (before ++ [c]) after := by
  have htext : (between before after).text = before ++ after := rfl
  have hplace : (between before after).cursor = before.length := rfl
  rw [type, insert_of_eq htext hplace]
  simp [between]

/-- Backspace takes the last character of the part before the cursor. -/
theorem backspace?_between_append (c : Char) :
    (between (before ++ [c]) after).backspace? = some (between before after) := by
  simp [backspace?, between, List.eraseIdx_append_of_length_le]

variable {after} in
/-- At the end of a line there is no character to delete. -/
theorem delete?_between_of_ends (h : Ends after) : (between before after).delete? = none := by
  rw [delete?, if_pos]
  rcases after with _ | ⟨c, after⟩
  · simp [between]
  · have hc : c = '\n' := by simpa [Ends] using h
    simp [between, hc]

/-- Within a line, deleting takes the first character of the part after the cursor. -/
theorem delete?_between_cons {c : Char} (hc : c ≠ '\n') :
    (between before (c :: after)).delete? = some (between before after) := by
  simp [delete?, between, hc, List.eraseIdx_append_of_length_le]

/-- A line is all that stands before the first line feed, or before the end of the text. -/
theorem takeWhile_append_of_ends {line rest : List Char} (hline : '\n' ∉ line) (hrest : Ends rest) :
    (line ++ rest).takeWhile (· != '\n') = line := by
  have hall : ∀ c ∈ line, (c != '\n') = true := by
    intro c hc
    simp only [bne_iff_ne]
    rintro rfl
    exact hline hc
  rw [List.takeWhile_append_of_pos hall]
  rcases rest with _ | ⟨c, rest⟩
  · simp
  · have hc : c = '\n' := by simpa [Ends] using hrest
    simp [hc]

/-- If the part after the cursor is the rest of a line and the lines below, then the line ends where
that rest does. -/
theorem lineEnd_between {line rest : List Char} (hline : '\n' ∉ line) (hrest : Ends rest) :
    (between before (line ++ rest)).lineEnd = before.length + line.length := by
  simp [lineEnd, between, takeWhile_append_of_ends hline hrest]

/-- If the part before the cursor is the lines above and the front of a line, then the line starts
where that front does. -/
theorem lineStart_between {front line : List Char} (hline : '\n' ∉ line)
    (hfront : Ends front.reverse) : (between (front ++ line) after).lineStart = front.length := by
  have hreverse : '\n' ∉ line.reverse := by simpa using hline
  have htake : ((front ++ line) ++ after).take (front ++ line).length = front ++ line :=
    List.take_left
  rw [lineStart, between, htake, List.reverse_append, takeWhile_append_of_ends hreverse hfront]
  simp

end

end FlatText

namespace Buffer

open FlatText

/-! ## The flat text of a buffer -/

/-- The number of characters before the cursor: those of the lines above, each with its line feed,
and those before it in its own line. -/
def offset (buffer : Buffer) : Nat :=
  ((buffer.lines.take buffer.row).flatMap (· ++ ['\n'])).length + buffer.col

/-- The buffer in one piece. -/
def flat (buffer : Buffer) : FlatText where
  text := buffer.content.toList
  cursor := buffer.offset

/-- The lines hold no line feed. -/
def Plain (buffer : Buffer) : Prop :=
  ∀ line ∈ buffer.lines, '\n' ∉ line

/-- The buffer holds this text with this cursor, and no line feed in its lines. -/
structure Shows (buffer : Buffer) (flat : FlatText) : Prop where
  plain : buffer.Plain
  flat_eq : buffer.flat = flat

/-- The text of the lines above the current one. -/
def textAbove (buffer : Buffer) : List Char :=
  buffer.above.reverse.flatMap (· ++ ['\n'])

/-- The text of the lines below the current one. -/
def textBelow (buffer : Buffer) : List Char :=
  buffer.below.flatMap ('\n' :: ·)

section
variable (buffer : Buffer)

/-- The text of a buffer is that of the lines above, the current line and that of the lines below.
-/
theorem toList_content :
    buffer.content.toList = buffer.textAbove ++ buffer.line ++ buffer.textBelow := by
  have join (above : List (List Char)) (first : List Char) (below : List (List Char)) :
      ['\n'].intercalate (above ++ first :: below) =
        above.flatMap (· ++ ['\n']) ++ first ++ below.flatMap ('\n' :: ·) := by
    induction above with
    | nil => simp [Text.intercalate_cons]
    | cons line above ih =>
      rw [List.cons_append, List.intercalate_cons_of_ne_nil (by simp), ih]
      simp
  simp [content, lines, textAbove, textBelow, join]

/-- The buffer in one piece has the lines above, the current line and the lines below one after
another. -/
theorem text_flat :
    buffer.flat.text = buffer.textAbove ++ buffer.line ++ buffer.textBelow :=
  buffer.toList_content

/-- The lines above are those before the row, so the cursor stands behind their text and what is
before it in its own line. -/
theorem offset_eq : buffer.offset = buffer.textAbove.length + buffer.before.length := by
  have htake : buffer.lines.take buffer.row = buffer.above.reverse := by
    simp [lines, row]
  rw [offset, htake, textAbove, col]

/-- The cursor of the buffer in one piece stands behind the lines above and what is before it in its
own line. -/
theorem cursor_flat : buffer.flat.cursor = buffer.textAbove.length + buffer.before.length :=
  buffer.offset_eq

/-- The buffer in one piece, by what stands above, in, and below the current line. -/
theorem flat_eq : buffer.flat =
    ⟨buffer.textAbove ++ buffer.line ++ buffer.textBelow,
      buffer.textAbove.length + buffer.before.length⟩ := by
  rw [flat, toList_content, offset_eq]

/-- The buffer in one piece, parted at the cursor. -/
theorem flat_eq_between : buffer.flat =
    between (buffer.textAbove ++ buffer.before.reverse) (buffer.after ++ buffer.textBelow) := by
  simp [flat_eq, between, line]

/-- The current line does not go on into the lines below. -/
theorem ends_textBelow : Ends buffer.textBelow := by
  unfold textBelow
  cases buffer.below with
  | nil => exact .inl rfl
  | cons line below => exact .inr rfl

/-- Read backwards, the current line does not go on into the lines above. -/
theorem ends_reverse_textAbove : Ends buffer.textAbove.reverse := by
  unfold textAbove
  cases buffer.above with
  | nil => exact .inl rfl
  | cons line above => exact .inr (by simp)

end

/-- A buffer is plain if none of the parts it is made of holds a line feed. -/
theorem plain_iff {buffer : Buffer} : buffer.Plain ↔
    (∀ line ∈ buffer.above, '\n' ∉ line) ∧ '\n' ∉ buffer.before ∧ '\n' ∉ buffer.after ∧
      ∀ line ∈ buffer.below, '\n' ∉ line := by
  simp only [Plain, lines, line, List.mem_append, List.mem_reverse, List.mem_cons]
  constructor
  · intro h
    have hline := h _ (.inr (.inl rfl))
    simp only [List.mem_append, List.mem_reverse, not_or] at hline
    exact ⟨fun line hmem => h line (.inl hmem), hline.1, hline.2,
      fun line hmem => h line (.inr (.inr hmem))⟩
  · rintro ⟨habove, hbefore, hafter, hbelow⟩ line (hmem | rfl | hmem)
    · exact habove line hmem
    · simp [hbefore, hafter]
    · exact hbelow line hmem

/-- Every place in some lines is the cursor of exactly one buffer. -/
theorem existsUnique_of_lt {lines : List (List Char)} {row col : Nat} (hrow : row < lines.length)
    (hcol : col ≤ lines[row].length) :
    ∃! buffer : Buffer, buffer.lines = lines ∧ buffer.row = row ∧ buffer.col = col := by
  refine ⟨⟨(lines.take row).reverse, (lines[row].take col).reverse, lines[row].drop col,
    lines.drop (row + 1)⟩, ?_, ?_⟩
  · simp [Buffer.lines, line, Buffer.row, Buffer.col]
    omega
  · rintro ⟨above, before, after, below⟩ ⟨rfl, rfl, rfl⟩
    simp [Buffer.lines, line, Buffer.row, Buffer.col, List.drop_append]

/-! ## Edits -/

section
variable {buffer : Buffer}

/-- The line of the cursor starts behind the text above: what is before the cursor in that line
holds no line feed. -/
theorem lineStart_flat (h : buffer.Plain) : buffer.flat.lineStart = buffer.textAbove.length := by
  obtain ⟨-, hbefore, -, -⟩ := plain_iff.mp h
  rw [flat_eq_between, lineStart_between _ (by simpa using hbefore) buffer.ends_reverse_textAbove]

/-- The line of the cursor ends behind the text above and that line. -/
theorem lineEnd_flat (h : buffer.Plain) :
    buffer.flat.lineEnd = (buffer.textAbove ++ buffer.line).length := by
  obtain ⟨-, -, hafter, -⟩ := plain_iff.mp h
  rw [flat_eq_between, lineEnd_between _ hafter buffer.ends_textBelow]
  simp [line]
  omega

/-- A character that is no line feed is typed into the text. -/
theorem shows_insertChar (h : buffer.Plain) {c : Char} (hc : c ≠ '\n') :
    (buffer.insertChar c).Shows (buffer.flat.type c) := by
  refine ⟨?_, ?_⟩
  · rw [plain_iff] at h ⊢
    simpa [insertChar, hc.symm] using h
  · rw [flat_eq_between buffer, type_between, flat_eq_between]
    simp [insertChar, textAbove, textBelow]

/-- To break a line is to type a line feed. -/
theorem shows_splitLine (h : buffer.Plain) : buffer.splitLine.Shows (buffer.flat.type '\n') := by
  refine ⟨?_, ?_⟩
  · rw [plain_iff] at h ⊢
    obtain ⟨habove, hbefore, hafter, hbelow⟩ := h
    simpa [splitLine, hbefore, hafter] using ⟨habove, hbelow⟩
  · rw [flat_eq_between buffer, type_between, flat_eq_between]
    simp [splitLine, textAbove, textBelow]

/-- Backspace takes the character before the cursor away, the line feed of the line above included,
and does nothing exactly at the start of the text. -/
theorem shows_backspace? (h : buffer.Plain) :
    Option.Rel Shows buffer.backspace? buffer.flat.backspace? := by
  obtain ⟨above, before, after, below⟩ := buffer
  rw [flat_eq_between]
  rw [plain_iff] at h
  cases before with
  | cons c before =>
    simp only [textAbove, List.reverse_cons, ← List.append_assoc, backspace?_between_append]
    refine .some ⟨?_, ?_⟩
    · rw [plain_iff]
      obtain ⟨habove, hbefore, hrest⟩ := h
      exact ⟨habove, fun hmem => hbefore (.tail _ hmem), hrest⟩
    · rw [flat_eq_between]
      simp [textAbove, textBelow]
  | nil =>
    cases above with
    | nil =>
      exact .none
    | cons line above =>
      simp only [textAbove, List.reverse_cons, List.flatMap_append, List.flatMap_cons,
        List.flatMap_nil, List.append_nil, List.reverse_nil, ← List.append_assoc,
        backspace?_between_append]
      refine .some ⟨?_, ?_⟩
      · rw [plain_iff]
        obtain ⟨habove, -, hrest⟩ := h
        refine ⟨fun other hother => habove other (.tail _ hother), ?_, hrest⟩
        simpa using habove line (.head _)
      · rw [flat_eq_between]
        simp [textAbove, textBelow]

/-- Deleting takes the character at the cursor away, and does nothing exactly at the end of a line.
-/
theorem shows_deleteChar? (h : buffer.Plain) :
    Option.Rel Shows buffer.deleteChar? buffer.flat.delete? := by
  obtain ⟨above, before, after, below⟩ := buffer
  rw [flat_eq_between]
  cases after with
  | nil =>
    rw [List.nil_append, delete?_between_of_ends _ (ends_textBelow _)]
    exact .none
  | cons c after =>
    rw [plain_iff] at h
    obtain ⟨habove, hbefore, hafter, hbelow⟩ := h
    obtain ⟨hc, hafter⟩ := not_or.mp (mt List.mem_cons.mpr hafter)
    rw [List.cons_append, delete?_between_cons _ _ (Ne.symm hc)]
    refine .some ⟨plain_iff.mpr ⟨habove, hbefore, hafter, hbelow⟩, ?_⟩
    rw [flat_eq_between]
    simp [textAbove, textBelow]

/-- Cutting the line off takes away what stands from the cursor to the end of its line. -/
theorem shows_truncateLine (h : buffer.Plain) :
    buffer.truncateLine.Shows buffer.flat.truncate := by
  have htext := buffer.text_flat
  have hbreak : buffer.flat.text =
      (buffer.textAbove ++ buffer.before.reverse) ++ (buffer.after ++ buffer.textBelow) := by
    simp [htext, line]
  have hcursor : buffer.flat.cursor = (buffer.textAbove ++ buffer.before.reverse).length := by
    simp [flat, offset_eq]
  refine ⟨?_, ?_⟩
  · rw [plain_iff] at h ⊢
    obtain ⟨habove, hbefore, -, hbelow⟩ := h
    exact ⟨habove, hbefore, List.not_mem_nil, hbelow⟩
  · rw [truncate, lineEnd_flat h, htext, List.drop_left, ← htext, hbreak, hcursor, List.take_left,
      flat_eq_between]
    simp [between, truncateLine, textAbove, textBelow]

/-- A line opened below is a line feed at the end of the current one. -/
theorem shows_openBelow (h : buffer.Plain) : buffer.openBelow.Shows buffer.flat.openBelow := by
  refine ⟨?_, ?_⟩
  · have hline := h buffer.line (by simp [lines])
    rw [plain_iff] at h ⊢
    simpa [openBelow, hline] using ⟨h.1, h.2.2.2⟩
  · rw [FlatText.openBelow, insert_of_eq buffer.text_flat (lineEnd_flat h), lineEnd_flat h,
      flat_eq]
    simp [openBelow, textAbove, textBelow, line, Nat.add_assoc]

/-- A line opened above is a line feed at the start of the current one. -/
theorem shows_openAbove (h : buffer.Plain) : buffer.openAbove.Shows buffer.flat.openAbove := by
  have htext : buffer.flat.text = buffer.textAbove ++ (buffer.line ++ buffer.textBelow) := by
    simp [text_flat]
  refine ⟨?_, ?_⟩
  · have hline := h buffer.line (by simp [lines])
    rw [plain_iff] at h ⊢
    simpa [openAbove, hline] using ⟨h.1, h.2.2.2⟩
  · rw [FlatText.openAbove, insert_of_eq htext (lineStart_flat h), lineStart_flat h,
      flat_eq]
    simp [openAbove, textAbove, textBelow, line]

/-- A line put below is a line feed and that line at the end of the current one. -/
theorem shows_putBelow (h : buffer.Plain) {line : List Char} (hline : '\n' ∉ line) :
    (buffer.putBelow line).Shows (buffer.flat.putBelow line) := by
  have hcol : buffer.flat.cursor - buffer.flat.lineStart = buffer.col := by
    rw [cursor_flat, lineStart_flat h, Nat.add_sub_cancel_left, col]
  have habove : (buffer.putBelow line).textAbove = buffer.textAbove ++ buffer.line ++ ['\n'] := by
    simp [putBelow, place, textAbove]
  have hbefore : (buffer.putBelow line).before.length = min buffer.col line.length := by
    simp [putBelow, place]
  refine ⟨?_, ?_⟩
  · have hcurrent := h buffer.line (by simp [lines])
    have hfront : '\n' ∉ line.take buffer.col := fun hmem => hline (List.mem_of_mem_take hmem)
    have hrest : '\n' ∉ line.drop buffer.col := fun hmem => hline (List.mem_of_mem_drop hmem)
    rw [plain_iff] at h ⊢
    simpa [putBelow, place, hcurrent, hfront, hrest] using ⟨h.1, h.2.2.2⟩
  · rw [FlatText.putBelow, insert_of_eq buffer.text_flat (lineEnd_flat h), lineEnd_flat h, hcol,
      flat_eq, habove, hbefore, putBelow, line_place]
    simp [textBelow, place, Nat.add_assoc]

end

/-! ## Movement -/

/-- The movements of the cursor. -/
def movements : List (Buffer → Buffer) :=
  [left, right, up, down, lineStart, lineEnd, lastLine]

/-- A movement leaves the lines alone. -/
theorem lines_movement {go : Buffer → Buffer} (h : go ∈ movements) (buffer : Buffer) :
    (go buffer).lines = buffer.lines := by
  obtain ⟨above, before, after, below⟩ := buffer
  simp only [movements, List.mem_cons, List.not_mem_nil, or_false] at h
  rcases h with rfl | rfl | rfl | rfl | rfl | rfl | rfl
  · cases before with
    | nil => rfl
    | cons c before => simp [left, lines, line]
  · cases after with
    | nil => rfl
    | cons c after => simp [right, lines, line]
  · cases above with
    | nil => rfl
    | cons next above => rw [up, lines_place]; simp [lines, line]
  · cases below with
    | nil => rfl
    | cons next below => rw [down, lines_place]; simp [lines, line]
  · simp [lineStart, lines, line]
  · simp [lineEnd, lines, line]
  · rcases hbelow : below.reverse with _ | ⟨last, between⟩
    · simp [lastLine, hbelow]
    · have hsame : below = between.reverse ++ [last] := by
        rw [← List.reverse_reverse below, hbelow, List.reverse_cons]
      simp only [lastLine, hbelow, lines_place]
      simp [lines, line, hsame]

/-- A movement changes the cursor, within the text, and not the text. -/
theorem shows_movement {buffer : Buffer} (h : buffer.Plain) {go : Buffer → Buffer}
    (hgo : go ∈ movements) :
    ∃ cursor ≤ buffer.flat.text.length, (go buffer).Shows ⟨buffer.flat.text, cursor⟩ := by
  have hlines := lines_movement hgo buffer
  have htext : (go buffer).flat.text = buffer.flat.text := by simp [flat, content, hlines]
  refine ⟨(go buffer).flat.cursor, ?_, ?_, ?_⟩
  · rw [← htext, flat_eq]
    simp [line]
  · rwa [Plain, hlines]
  · rw [← htext]

/-- **A buffer is one text with a cursor.** If no line of it holds a line feed, then neither does
any after an edit or a movement, and every edit is one of the flat text at its cursor; the edits
that can find nothing to take away find nothing in the one exactly if they do in the other. A
movement keeps the text, and the cursor stays in it. -/
theorem shows_edits {buffer : Buffer} (h : buffer.Plain) {c : Char} (hc : c ≠ '\n')
    {line : List Char} (hline : '\n' ∉ line) :
    (buffer.insertChar c).Shows (buffer.flat.type c) ∧
      buffer.splitLine.Shows (buffer.flat.type '\n') ∧
      Option.Rel Shows buffer.backspace? buffer.flat.backspace? ∧
      Option.Rel Shows buffer.deleteChar? buffer.flat.delete? ∧
      buffer.truncateLine.Shows buffer.flat.truncate ∧
      buffer.openBelow.Shows buffer.flat.openBelow ∧
      buffer.openAbove.Shows buffer.flat.openAbove ∧
      (buffer.putBelow line).Shows (buffer.flat.putBelow line) ∧
      ∀ go ∈ movements, ∃ cursor ≤ buffer.flat.text.length,
        (go buffer).Shows ⟨buffer.flat.text, cursor⟩ :=
  ⟨shows_insertChar h hc, shows_splitLine h, shows_backspace? h, shows_deleteChar? h,
    shows_truncateLine h, shows_openBelow h, shows_openAbove h, shows_putBelow h hline,
    fun _ hgo => shows_movement h hgo⟩

/-- At the start of a line, with a character of more than one byte above it, backspace joins the two
lines. -/
theorem shows_edits_of_join :
    let buffer : Buffer := ⟨[['h', 'é']], [], ['a', 'b'], [['c']]⟩
    buffer.Plain ∧
      Option.Rel Shows buffer.backspace? (some ⟨['h', 'é', 'a', 'b', '\n', 'c'], 2⟩) := by
  intro buffer
  have hplain : buffer.Plain := by
    unfold Plain
    decide
  have hline : '\n' ∉ ([] : List Char) := by decide
  have hback := (shows_edits hplain (c := 'x') (by decide) hline).2.2.1
  have hflat : buffer.flat.backspace? = some ⟨['h', 'é', 'a', 'b', '\n', 'c'], 2⟩ := by
    decide +kernel
  exact ⟨hplain, hflat ▸ hback⟩

end Buffer

end PocketShell
