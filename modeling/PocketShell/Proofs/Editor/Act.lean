import PocketShell.Editor.Call
import PocketShell.Proofs.Editor.FlatText

/-!
# What a key can do to an editor

Whatever a key is, it does one of a few things to an open editor. `Editor.Act` lists them, with what
has been checked before each and the signals that are answered. Main statement: `Editor.act_press`.
A closed editor takes no keys (`Editor.press_of_closed`), and no editor has anything saved into
another file than its own (`Editor.savesOnly_callAll`).
-/

namespace PocketShell

/-- One buffer comes of another by an edit that needs no other text. -/
inductive Buffer.Edits : Buffer → Buffer → Prop
  | insertChar (buffer : Buffer) {c : Char} : Text.isControl c = false →
      Edits buffer (buffer.insertChar c)
  | splitLine (buffer : Buffer) : Edits buffer buffer.splitLine
  | backspace {before after : Buffer} : before.backspace? = some after → Edits before after
  | deleteChar {before after : Buffer} : before.deleteChar? = some after → Edits before after
  | truncateLine (buffer : Buffer) : Edits buffer buffer.truncateLine
  | openBelow (buffer : Buffer) : Edits buffer buffer.openBelow
  | openAbove (buffer : Buffer) : Edits buffer buffer.openAbove

namespace Editor

/-- What a key does to an open editor, and the signals that it answers. -/
inductive Act : Editor → List Signal → Editor → Prop
  /-- The mode or the message is another. -/
  | turn (editor : Editor) (mode : Mode) (message : Option Message) :
      Act editor [] { editor with mode, message }
  /-- The cursor moves. -/
  | move (editor : Editor) (mode : Mode) {go : Buffer → Buffer} : go ∈ Buffer.movements →
      Act editor [] { editor with buffer := go editor.buffer, mode, message := none }
  /-- The text is edited. -/
  | edit (editor : Editor) (mode : Mode) {buffer : Buffer} : editor.buffer.Edits buffer →
      Act editor [] { editor with buffer, mode, modified := true, message := none }
  /-- The current line is kept for putting. -/
  | yank (editor : Editor) :
      Act editor [] { editor with yank := some editor.buffer.line, message := some .yanked }
  /-- The line that is kept is put. -/
  | put {editor : Editor} {line : List Char} : editor.yank = some line →
      Act editor []
        { editor with buffer := editor.buffer.putBelow line, modified := true, message := none }
  /-- A directive that has been typed is carried out. -/
  | obey {editor : Editor} {typed : String} {directive : Directive} :
      editor.mode = .command typed → Directive.table.lookup typed = some directive →
      Act editor ({ editor with mode := .normal, message := none }.carryOut directive).1
        ({ editor with mode := .normal, message := none }.carryOut directive).2

/-- A closed editor answers nothing to a key and stays as it is. -/
theorem press_of_closed {editor : Editor} (h : editor.closed = true) (key : Key) :
    editor.press key = ([], editor) := by
  rw [press, if_pos h]

section
variable (editor : Editor)

/-- A movement with a key is a `move` step: the key has taken the message away. -/
theorem act_move {go : Buffer → Buffer} (h : go ∈ Buffer.movements) :
    Act editor [] ({ editor with message := none }.move go) :=
  .move editor editor.mode h

/-- An edit that finds nothing to change leaves the text alone. -/
theorem act_change? (mode : Mode) {edit : Buffer → Option Buffer}
    (hedit : ∀ buffer, edit editor.buffer = some buffer → editor.buffer.Edits buffer) :
    Act editor [] ({ editor with mode, message := none }.change? edit) := by
  unfold change?
  split
  · next buffer hbuffer => exact .edit editor mode (hedit buffer hbuffer)
  · exact .turn editor mode none

/-- Every key in normal mode is a step without a signal. A key that has nothing to act on turns the
editor only. -/
theorem act_pressNormal (key : Key) :
    Act editor [] ({ editor with message := none }.pressNormal key) := by
  unfold pressNormal
  split
  iterate 11 · exact act_move editor (by simp [Buffer.movements])
  · exact .turn editor .insert none
  · have hright : Buffer.right ∈ Buffer.movements := by simp [Buffer.movements]
    exact .move editor .insert hright
  · exact .edit editor .insert (.openBelow _)
  · exact .edit editor .insert (.openAbove _)
  · exact act_change? editor editor.mode fun _ => .deleteChar
  · exact .edit editor editor.mode (.truncateLine _)
  · exact .yank editor
  · split
    · next line hline => exact .put hline
    · exact .turn editor editor.mode none
  · exact .turn editor (.command "") none
  · exact .turn editor editor.mode none

/-- Every key in insert mode is a step without a signal. -/
theorem act_pressInsert (key : Key) :
    Act editor [] ({ editor with message := none }.pressInsert key) := by
  cases key with
  | escape =>
    have hleft : Buffer.left ∈ Buffer.movements := by simp [Buffer.movements]
    exact .move editor .normal hleft
  | enter => exact .edit editor editor.mode (.splitLine _)
  | backspace => exact act_change? editor editor.mode fun _ => .backspace
  | left | right | up | down => exact act_move editor (by simp [Buffer.movements])
  | char c =>
    rw [pressInsert]
    split
    · exact .turn editor editor.mode none
    · next hc => exact .edit editor editor.mode (.insertChar _ (by simpa using hc))

/-- Every key in command mode is a step. Only `Enter` answers signals, which are those of the
directive that is carried out. -/
theorem act_pressCommand {typed : String} (h : editor.mode = .command typed) (key : Key) :
    Act editor ({ editor with message := none }.pressCommand typed key).1
      ({ editor with message := none }.pressCommand typed key).2 := by
  cases key with
  | escape => exact .turn editor .normal none
  | enter =>
    rw [pressCommand]
    split
    · next directive hdirective => exact .obey h hdirective
    · exact .turn editor .normal (some (.unknownDirective typed))
  | backspace =>
    rw [pressCommand]
    split
    · exact .turn editor .normal none
    · exact .turn editor (.command _) none
  | char c =>
    rw [pressCommand]
    split
    · exact .turn editor editor.mode none
    · exact .turn editor (.command _) none
  | left | right | up | down => exact .turn editor editor.mode none

/-- **What a key does to an open editor.** -/
theorem act_press (h : editor.closed = false) (key : Key) :
    Act editor (editor.press key).1 (editor.press key).2 := by
  rw [press, if_neg (by simp [h])]
  simp only
  split
  · exact act_pressNormal editor key
  · exact act_pressInsert editor key
  · next typed htyped => exact act_pressCommand editor htyped key

/-- What a call comes to: the text is saved, or a closed editor is left alone, or a key does
something to an open one. -/
theorem call_cases (call : Call) :
    editor.call call = editor.save ∨ editor.call call = ([], editor) ∨
      (editor.closed = false ∧ Act editor (editor.call call).1 (editor.call call).2) := by
  cases call with
  | save => exact .inl rfl
  | press key =>
    cases hclosed : editor.closed with
    | true => exact .inr (.inl (press_of_closed hclosed key))
    | false => exact .inr (.inr ⟨rfl, act_press editor hclosed key⟩)

end

/-! ## The file -/

/-- The signals are about no other file than this one. -/
def SavesOnly (file : String) (signals : List Signal) : Prop :=
  ∀ other content, .save other content ∈ signals → other = file

/-- A directive saves into the file of the editor only, and does not change which file that is. -/
theorem savesOnly_carryOut (editor : Editor) (directive : Directive) :
    SavesOnly editor.file (editor.carryOut directive).1 ∧
      (editor.carryOut directive).2.file = editor.file := by
  cases directive with
  | write | writeQuit => exact ⟨by simp +contextual [SavesOnly, carryOut, save, close], rfl⟩
  | quit discard =>
    cases discard with
    | true => exact ⟨by simp [SavesOnly, carryOut, close], rfl⟩
    | false =>
      rw [carryOut]
      split
      · exact ⟨nofun, rfl⟩
      · exact ⟨by simp [SavesOnly, close], rfl⟩

/-- A step saves into the file of the editor only, and does not change which file that is. -/
theorem Act.savesOnly {before after : Editor} {signals : List Signal}
    (h : Act before signals after) :
    SavesOnly before.file signals ∧ after.file = before.file := by
  cases h with
  | turn | move | edit | yank | put => exact ⟨nofun, rfl⟩
  | @obey typed directive =>
    exact savesOnly_carryOut { before with mode := .normal, message := none } directive

/-- A call saves into the file of the editor only, and does not change which file that is. -/
theorem savesOnly_call (editor : Editor) (call : Call) :
    SavesOnly editor.file (editor.call call).1 ∧ (editor.call call).2.file = editor.file := by
  rcases editor.call_cases call with hsave | hclosed | ⟨-, hact⟩
  · rw [hsave]
    exact ⟨by simp +contextual [SavesOnly, Editor.save], rfl⟩
  · rw [hclosed]
    exact ⟨nofun, rfl⟩
  · exact hact.savesOnly

/-- An editor has texts saved into its own file only. -/
theorem savesOnly_callAll (editor : Editor) (calls : List Call) :
    SavesOnly editor.file (editor.callAll calls).1 := by
  have hstart : SavesOnly editor.file [] ∧ editor.file = editor.file := ⟨nofun, rfl⟩
  have hrun := callAll_induction
    (fun signals after => SavesOnly editor.file signals ∧ after.file = editor.file) ?_ hstart calls
  · exact hrun.1
  · rintro earlier middle call ⟨hearlier, hmiddle⟩
    obtain ⟨hcall, hafter⟩ := savesOnly_call middle call
    refine ⟨fun file content hmem => ?_, hafter.trans hmiddle⟩
    rcases List.mem_append.mp hmem with hmem | hmem
    · exact hearlier file content hmem
    · exact (hcall file content hmem).trans hmiddle

end Editor

end PocketShell
