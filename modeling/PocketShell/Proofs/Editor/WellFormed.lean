import PocketShell.Proofs.Editor.Act
import PocketShell.Proofs.Editor.Grid

/-!
# The state of an editor stays in order

A line that is typed or put never holds a line feed, and an editor that closes leaves command mode
first (`Editor.Regular`). Every call keeps this, and gives the buffer at most one operation. A mode
has the directive with it; `Editor.Status` keeps the directive in a field of its own, and takes keys
alike. With the views of a buffer this puts all of the state in order (`Editor.WellFormed`). Main
statement: `Editor.wellFormed_callAll`.
-/

namespace PocketShell

namespace Buffer

variable {before after : Buffer}

/-- A text that is split again where lines end gives the lines back. -/
theorem Plain.splitOn_content {buffer : Buffer} (h : buffer.Plain) :
    buffer.content.toList.splitOn '\n' = buffer.lines := by
  have hlines : buffer.lines ≠ [] := by simp [lines]
  rw [content, String.toList_ofList]
  exact List.splitOn_intercalate '\n' h hlines

/-- A text that is opened is split at all its line feeds, so no line holds one. -/
theorem plain_ofContent (content : String) : (ofContent content).Plain := by
  intro line hline
  have hgrid : (ofContent content).lines = content.toList.splitOn '\n' :=
    congrArg Grid.lines (grid_ofContent content)
  rw [hgrid, List.splitOn_eq_splitOnP] at hline
  exact fun hmark => by simpa using Text.forall_of_mem_splitOnP hline '\n' hmark

/-- A movement leaves the lines without a line feed. -/
theorem Plain.movement {buffer : Buffer} (h : buffer.Plain) {go : Buffer → Buffer}
    (hgo : go ∈ movements) : (go buffer).Plain := by
  rwa [Plain, lines_movement hgo]

/-- A buffer that shows a flat text is plain. -/
theorem plain_of_rel {flat : Option FlatText} (h : Option.Rel Shows (some after) flat) :
    after.Plain := by
  cases h with
  | some hshows => exact hshows.plain

/-- An edit leaves the lines without a line feed: no control character is inserted. -/
theorem Edits.plain (h : Edits before after) (hbefore : before.Plain) : after.Plain := by
  cases h with
  | @insertChar c hc =>
    have hne : c ≠ '\n' := by
      rintro rfl
      exact absurd hc (by decide)
    exact (shows_insertChar hbefore hne).plain
  | splitLine => exact (shows_splitLine hbefore).plain
  | backspace hafter => exact plain_of_rel (hafter ▸ shows_backspace? hbefore)
  | deleteChar hafter => exact plain_of_rel (hafter ▸ shows_deleteChar? hbefore)
  | truncateLine => exact (shows_truncateLine hbefore).plain
  | openBelow => exact (shows_openBelow hbefore).plain
  | openAbove => exact (shows_openAbove hbefore).plain

/-! ## Operations -/

/-- Each movement is an operation. -/
theorem exists_operation_movement {go : Buffer → Buffer} (h : go ∈ movements) (buffer : Buffer) :
    ∃ operation, buffer.operate? operation = some (go buffer) := by
  simp only [movements, List.mem_cons, List.not_mem_nil, or_false] at h
  rcases h with rfl | rfl | rfl | rfl | rfl | rfl | rfl
  · exact ⟨.left, rfl⟩
  · exact ⟨.right, rfl⟩
  · exact ⟨.up, rfl⟩
  · exact ⟨.down, rfl⟩
  · exact ⟨.lineStart, rfl⟩
  · exact ⟨.lineEnd, rfl⟩
  · exact ⟨.lastLine, rfl⟩

/-- Each edit is an operation. -/
theorem Edits.exists_operation (h : Edits before after) :
    ∃ operation, before.operate? operation = some after := by
  cases h with
  | insertChar => exact ⟨.insertChar _, rfl⟩
  | splitLine => exact ⟨.splitLine, rfl⟩
  | backspace hafter => exact ⟨.backspace, hafter⟩
  | deleteChar hafter => exact ⟨.deleteChar, hafter⟩
  | truncateLine => exact ⟨.truncateLine, rfl⟩
  | openBelow => exact ⟨.openBelow, rfl⟩
  | openAbove => exact ⟨.openAbove, rfl⟩

end Buffer

namespace Editor

/-- A directive leaves the text, the line that is kept and the mode alone. -/
theorem exists_carryOut_eq (editor : Editor) (directive : Directive) :
    ∃ modified message closed,
      (editor.carryOut directive).2 = { editor with modified, message, closed } := by
  cases directive with
  | write | writeQuit => exact ⟨_, _, _, rfl⟩
  | quit discard =>
    cases discard with
    | true => exact ⟨_, _, _, rfl⟩
    | false =>
      rw [carryOut]
      split
      · exact ⟨_, _, _, rfl⟩
      · exact ⟨_, _, _, rfl⟩

/-! ## The invariant -/

/-- The lines and the line that is kept hold no line feed, and a closed editor is in normal mode. -/
structure Regular (editor : Editor) : Prop where
  plain : editor.buffer.Plain
  plain_yank : ∀ line ∈ editor.yank, '\n' ∉ line
  normal_of_closed : editor.closed = true → editor.mode = .normal

variable {before after : Editor} {signals : List Signal}

/-- A step keeps the lines and the line that is kept without line feeds, and an editor that it
closes is in normal mode. -/
theorem Regular.act (h : Act before signals after) (hopen : before.closed = false)
    (hbefore : before.Regular) : after.Regular := by
  obtain ⟨hplain, hyank, -⟩ := hbefore
  -- Only a directive closes an editor, and that one has left command mode before.
  have hstill {mode : Mode} (hclosed : before.closed = true) : mode = .normal := by
    simp [hopen] at hclosed
  cases h with
  | turn => exact ⟨hplain, hyank, hstill⟩
  | move mode hgo => exact ⟨hplain.movement hgo, hyank, hstill⟩
  | edit mode hedits => exact ⟨hedits.plain hplain, hyank, hstill⟩
  | yank =>
    refine ⟨hplain, ?_, hstill⟩
    rintro line ⟨⟩
    exact hplain _ (by simp [Buffer.lines])
  | put hline => exact ⟨(Buffer.shows_putBelow hplain (hyank _ hline)).plain, hyank, hstill⟩
  | @obey typed directive =>
    obtain ⟨modified, message, closed, hafter⟩ :=
      exists_carryOut_eq { before with mode := .normal, message := none } directive
    rw [hafter]
    exact ⟨hplain, hyank, fun _ => rfl⟩

/-- A call keeps the invariant. -/
theorem Regular.call (h : before.Regular) (call : Call) : (before.call call).2.Regular := by
  rcases before.call_cases call with hsave | hclosed | ⟨hopen, hact⟩
  · rw [hsave]
    exact ⟨h.plain, h.plain_yank, h.normal_of_closed⟩
  · rw [hclosed]
    exact h
  · exact h.act hact hopen

/-- All calls together keep the invariant. -/
theorem Regular.callAll (h : before.Regular) (calls : List Call) :
    (before.callAll calls).2.Regular := by
  induction calls generalizing before with
  | nil => exact h
  | cons call calls ih => exact ih (h.call call)

/-- The invariant holds when the editor is opened. -/
theorem regular_start (file content : String) : (start file content).Regular :=
  ⟨Buffer.plain_ofContent content, nofun, nofun⟩

/-! ## Operations on the buffer -/

/-- A step applies one operation to the buffer, or none. -/
theorem Act.buffer (h : Act before signals after) :
    after.buffer = before.buffer ∨
      ∃ operation, before.buffer.operate? operation = some after.buffer := by
  cases h with
  | turn | yank => exact .inl rfl
  | move mode hgo => exact .inr (Buffer.exists_operation_movement hgo _)
  | edit mode hedits => exact .inr hedits.exists_operation
  | @put line => exact .inr ⟨.putBelow line, rfl⟩
  | @obey typed directive =>
    obtain ⟨modified, message, closed, hafter⟩ :=
      exists_carryOut_eq { before with mode := .normal, message := none } directive
    rw [hafter]
    exact .inl rfl

/-- A call gives the buffer at most one operation. -/
theorem buffer_call (editor : Editor) (call : Call) :
    (editor.call call).2.buffer = editor.buffer ∨
      ∃ operation, editor.buffer.operate? operation = some (editor.call call).2.buffer := by
  rcases editor.call_cases call with hsave | hclosed | ⟨-, hact⟩
  · rw [hsave]
    exact .inl rfl
  · rw [hclosed]
    exact .inl rfl
  · exact hact.buffer

/-! ## The directive in a field of its own -/

/-- The modes, without what is typed in them. -/
inductive Mode.Kind where
  | normal
  | insert
  | command
  deriving DecidableEq, Repr

/-- A mode that has the directive typed so far in a field of its own. Nothing keeps that field from
having a directive in the other modes as well. -/
structure Status where
  kind : Mode.Kind
  pending : String
  deriving DecidableEq, Repr

/-- The mode without what is typed in it. -/
def Mode.kind : Mode → Mode.Kind
  | normal => .normal
  | insert => .insert
  | command _ => .command

/-- The mode in the form of two fields. -/
def Mode.status (mode : Mode) : Status :=
  ⟨mode.kind, mode.pending⟩

/-- What a key makes of the two fields. The directive is emptied when command mode is entered, when
it is given up, and when it is carried out. -/
def Status.press (status : Status) (key : Key) : Status :=
  match status.kind, key with
  | .normal, .char c =>
    if c = ':' then ⟨.command, ""⟩
    else if c ∈ ['i', 'a', 'o', 'O'] then { status with kind := .insert }
    else status
  | .insert, .escape => { status with kind := .normal }
  | .command, .escape => ⟨.normal, ""⟩
  | .command, .enter => ⟨.normal, ""⟩
  | .command, .backspace =>
    if status.pending = "" then { status with kind := .normal }
    else { status with pending := String.ofList status.pending.toList.dropLast }
  | .command, .char c =>
    if Text.isControl c then status else { status with pending := status.pending.push c }
  | _, _ => status

section
variable (pending : String) (c : Char)

/-- A character in normal mode: `:` begins a directive, four letters begin to insert, and the others
turn the mode into no other. -/
theorem Status.press_normal_char : Status.press ⟨.normal, pending⟩ (.char c) =
    if c = ':' then ⟨.command, ""⟩
    else if c ∈ ['i', 'a', 'o', 'O'] then ⟨.insert, pending⟩
    else ⟨.normal, pending⟩ := rfl

/-- Backspace in command mode takes the last character of the directive, or leaves that mode if there
is none. -/
theorem Status.press_command_backspace : Status.press ⟨.command, pending⟩ .backspace =
    if pending = "" then ⟨.normal, pending⟩
    else ⟨.command, String.ofList pending.toList.dropLast⟩ := rfl

/-- A character in command mode comes to the directive, unless it is a control character. -/
theorem Status.press_command_char : Status.press ⟨.command, pending⟩ (.char c) =
    if Text.isControl c then ⟨.command, pending⟩ else ⟨.command, pending.push c⟩ := rfl

end

section
variable (editor : Editor)

@[simp] theorem mode_change? (edit : Buffer → Option Buffer) :
    (editor.change? edit).mode = editor.mode := by
  unfold change?
  split
  · rfl
  · rfl

/-- In normal mode a key makes of the two fields what `Status.press` says. -/
theorem status_pressNormal (h : editor.mode = .normal) (key : Key) :
    (editor.pressNormal key).mode.status = editor.mode.status.press key := by
  rw [h]
  unfold pressNormal
  split
  iterate 11 · exact congrArg Mode.status h
  iterate 4 · rfl
  · rw [mode_change?, h]; rfl
  iterate 2 · exact congrArg Mode.status h
  · split
    · exact congrArg Mode.status h
    · exact congrArg Mode.status h
  · rfl
  · -- No other key turns the mode.
    rw [h]
    cases key with
    | char c =>
      obtain ⟨hcolon, hinsert⟩ : c ≠ ':' ∧ c ∉ ['i', 'a', 'o', 'O'] := by simp_all
      have hpress := Status.press_normal_char "" c
      rw [if_neg hcolon, if_neg hinsert] at hpress
      exact hpress.symm
    | escape | enter | backspace | left | right | up | down => rfl

/-- In insert mode a key makes of the two fields what `Status.press` says. -/
theorem status_pressInsert (h : editor.mode = .insert) (key : Key) :
    (editor.pressInsert key).mode.status = editor.mode.status.press key := by
  rw [h]
  cases key with
  | escape => rfl
  | enter | left | right | up | down => exact congrArg Mode.status h
  | backspace => rw [pressInsert, mode_change?, h]; rfl
  | char c =>
    rw [pressInsert]
    split
    · rw [h]; rfl
    · rw [change, h]; rfl

/-- In command mode a key makes of the two fields what `Status.press` says. -/
theorem status_pressCommand {typed : String} (h : editor.mode = .command typed) (key : Key) :
    (editor.pressCommand typed key).2.mode.status = editor.mode.status.press key := by
  rw [h]
  cases key with
  | escape => rfl
  | enter =>
    rw [pressCommand]
    split
    · next directive _ =>
      obtain ⟨modified, message, closed, hafter⟩ :=
        exists_carryOut_eq { editor with mode := .normal } directive
      rw [hafter]
      rfl
    · rfl
  | backspace =>
    have hpress := Status.press_command_backspace typed
    rw [pressCommand]
    split
    · next hnil =>
      obtain rfl : typed = "" := by simpa using hnil
      exact hpress.symm
    · next c cs hcons =>
      have hne : typed ≠ "" := by
        rintro rfl
        cases hcons
      rw [if_neg hne, hcons] at hpress
      exact hpress.symm
  | char c =>
    have hpress := Status.press_command_char typed c
    rw [pressCommand]
    split
    · next hc =>
      rw [if_pos hc] at hpress
      exact (congrArg Mode.status h).trans hpress.symm
    · next hc =>
      rw [if_neg hc] at hpress
      exact hpress.symm
  | left | right | up | down => exact congrArg Mode.status h

/-- A key makes of the two fields what it makes of the mode. -/
theorem status_press (hopen : editor.closed = false) (key : Key) :
    (editor.press key).2.mode.status = editor.mode.status.press key := by
  rw [press, if_neg (by simp [hopen])]
  simp only
  split
  · next h => exact status_pressNormal { editor with message := none } h key
  · next h => exact status_pressInsert { editor with message := none } h key
  · next typed h => exact status_pressCommand { editor with message := none } h key

end

/-! ## States in order -/

/-- The cursor is in the text, nothing that an operation reads or cuts is out of range, the lines
are what the text splits into, only command mode has a directive typed, and a closed editor is in
normal mode. -/
structure WellFormed (editor : Editor) : Prop where
  lines_ne_nil : editor.buffer.lines ≠ []
  row_lt : editor.buffer.row < editor.buffer.lines.length
  line_eq : editor.buffer.lines[editor.buffer.row]? = some editor.buffer.line
  col_le : editor.buffer.col ≤ editor.buffer.line.length
  in_range : ∀ operation, editor.buffer.grid.operate? operation =
    some ((editor.buffer.operate? operation).map Buffer.grid)
  plain : ∀ line ∈ editor.buffer.lines, '\n' ∉ line
  plain_yank : ∀ line ∈ editor.yank, '\n' ∉ line
  splitOn_content : editor.buffer.content.toList.splitOn '\n' = editor.buffer.lines
  pending_eq : (∀ typed, editor.mode ≠ .command typed) → editor.mode.pending = ""
  /-- A mode cannot have a directive unless it is command mode. If the directive is kept in a field
  of its own, that field stays what it is in the mode with every key. -/
  status_eq : editor.closed = false →
    ∀ key, (editor.press key).2.mode.status = editor.mode.status.press key
  normal_of_closed : editor.closed = true → editor.mode = .normal

/-- What the invariant says about the lines and the closing is all that well-formedness needs; the
rest holds of every buffer and every mode. -/
theorem Regular.wellFormed {editor : Editor} (h : editor.Regular) : editor.WellFormed where
  lines_ne_nil := by simp [Buffer.lines]
  row_lt := editor.buffer.row_lt_length_lines
  line_eq := editor.buffer.getElem?_row_lines
  col_le := editor.buffer.col_le_length_line
  in_range := editor.buffer.operate?_grid
  plain := h.plain
  plain_yank := h.plain_yank
  splitOn_content := h.plain.splitOn_content
  pending_eq hmode := by
    cases hcase : editor.mode with
    | normal | insert => rfl
    | command typed => exact absurd hcase (hmode typed)
  status_eq hopen key := editor.status_press hopen key
  normal_of_closed := h.normal_of_closed

/-- **The state of an editor stays in order.** Whatever calls the editor of a text has answered, its
state is in order, and the next call leaves the buffer or is one operation on it. -/
theorem wellFormed_callAll (file content : String) (calls : List Call) :
    let editor := ((start file content).callAll calls).2
    editor.WellFormed ∧
      ∀ call, (editor.call call).2.buffer = editor.buffer ∨
        ∃ operation, editor.buffer.operate? operation = some (editor.call call).2.buffer := by
  intro editor
  have hregular : editor.Regular := (regular_start file content).callAll calls
  exact ⟨hregular.wellFormed, editor.buffer_call⟩

end Editor

end PocketShell
