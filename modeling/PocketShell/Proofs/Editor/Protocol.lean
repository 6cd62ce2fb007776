import PocketShell.Named
import PocketShell.Proofs.Editor.Act

/-!
# When an editor saves and when it ends

An editor that takes keys has its text saved each time it carries out a directive that saves
(`Editor.Writes`), and answers that it has ended when it closes; after that it answers nothing. Main
statement: `Editor.signals_pressAll_start`.
-/

namespace PocketShell.Editor

/-! ## Directives that save -/

/-- Taking this key, the editor carries out one of the directives that save the text. -/
def Writes (editor : Editor) (key : Key) : Prop :=
  editor.closed = false ∧ key = .enter ∧ ∃ typed ∈ ["w", "wq", "x"], editor.mode = .command typed

instance (editor : Editor) (key : Key) : Decidable (editor.Writes key) :=
  inferInstanceAs (Decidable (_ ∧ _ ∧ _))

/-- The text at each key with which the editor carries out a directive that saves, in order. -/
def writtenTexts (editor : Editor) : List Key → List String
  | [] => []
  | key :: keys =>
    (if editor.Writes key then [editor.buffer.content] else []) ++
      (editor.press key).2.writtenTexts keys

/-- The directive saves the text. -/
def Directive.saves : Directive → Bool
  | write | writeQuit => true
  | quit _ => false

/-- Of the directives in the table, `w`, `wq` and `x` are those that save. -/
theorem Directive.saves_iff {typed : String} {directive : Directive}
    (h : table.lookup typed = some directive) :
    directive.saves = true ↔ typed ∈ ["w", "wq", "x"] := by
  have hmem : (typed, directive) ∈ table := Named.mem_of_get? h
  simp only [table, List.mem_cons, List.not_mem_nil, or_false, Prod.mk.injEq] at hmem
  rcases hmem with ⟨rfl, rfl⟩ | ⟨rfl, rfl⟩ | ⟨rfl, rfl⟩ | ⟨rfl, rfl⟩ | ⟨rfl, rfl⟩ <;> decide

/-- What is not in the table is none of the directives that save. -/
theorem Directive.notMem_of_lookup {typed : String} (h : table.lookup typed = none) :
    typed ∉ ["w", "wq", "x"] := by
  intro hmem
  simp only [List.mem_cons, List.not_mem_nil, or_false] at hmem
  rcases hmem with rfl | rfl | rfl <;> exact absurd h (by decide)

section
variable {editor : Editor} {typed : String}

/-- In command mode `Enter` writes exactly if one of the three directives that save is typed. -/
theorem writes_enter_iff (hopen : editor.closed = false) (hmode : editor.mode = .command typed) :
    editor.Writes .enter ↔ typed ∈ ["w", "wq", "x"] := by
  constructor
  · rintro ⟨-, -, other, hother, hcommand⟩
    have htyped : typed = other := Mode.command.inj (hmode.symm.trans hcommand)
    rwa [htyped]
  · exact fun htyped => ⟨hopen, rfl, typed, htyped, hmode⟩

end

/-! ## One key -/

/-- That some texts are to be saved into the file of an editor, and then, if the editor is closed,
that it has ended. -/
def answer (texts : List String) (editor : Editor) : List Signal :=
  texts.map (.save editor.file) ++ if editor.closed then [.exit] else []

section
variable {before after : Editor} {signals : List Signal} {key : Key}

/-- A directive that saves answers with the text, one that closes the editor with the exit, and `wq`
and `x` with both in this order. -/
theorem answer_carryOut {editor : Editor} (hopen : editor.closed = false) (directive : Directive) :
    (editor.carryOut directive).1 =
      answer (if directive.saves then [editor.buffer.content] else [])
        (editor.carryOut directive).2 := by
  cases directive with
  | write => simp [carryOut, save, answer, Directive.saves, hopen]
  | writeQuit => simp [carryOut, save, close, answer, Directive.saves]
  | quit discard =>
    cases discard with
    | true => simp [carryOut, close, answer, Directive.saves]
    | false =>
      rw [carryOut]
      split
      · simp [answer, Directive.saves, hopen]
      · simp [close, answer, Directive.saves]

/-- An editor that answers nothing stays open. -/
theorem Act.closed_of_silent (h : Act before signals after) (hopen : before.closed = false)
    (hsilent : signals = []) : after.closed = false := by
  cases h with
  | turn | move | edit | yank | put => exact hopen
  | @obey typed directive =>
    have hready : { before with mode := .normal, message := none : Editor }.closed = false := hopen
    have hanswer := answer_carryOut hready directive
    rw [hsilent, answer] at hanswer
    have hend := (List.append_eq_nil_iff.mp hanswer.symm).2
    simpa using hend

/-- A key that does not end a directive is not answered. -/
theorem silent_pressCommand (editor : Editor) (typed : String) (hkey : key ≠ .enter) :
    (editor.pressCommand typed key).1 = [] := by
  cases key with
  | enter => exact absurd rfl hkey
  | escape | left | right | up | down => rfl
  | backspace | char c =>
    rw [pressCommand]
    split
    · rfl
    · rfl

/-- A key that answers nothing and does not write has answered what it should: an editor that closes
does not stay silent. -/
theorem answer_of_silent (hopen : before.closed = false) (hsilent : (before.press key).1 = [])
    (hquiet : ¬ before.Writes key) :
    (before.press key).1 =
      answer (if before.Writes key then [before.buffer.content] else []) (before.press key).2 := by
  have hstays := (act_press before hopen key).closed_of_silent hopen hsilent
  simp [answer, hsilent, hquiet, hstays]

/-- What an open editor answers to a key. -/
theorem answer_press (hopen : before.closed = false) (key : Key) :
    (before.press key).1 =
      answer (if before.Writes key then [before.buffer.content] else []) (before.press key).2 := by
  by_cases henter : key = .enter ∧ ∃ typed, before.mode = .command typed
  · obtain ⟨rfl, typed, hmode⟩ := henter
    have hpress : before.press .enter =
        { before with message := none }.pressCommand typed .enter := by
      simp [press, hopen, hmode]
    cases hlookup : Directive.table.lookup typed with
    | none =>
      have hquiet : ¬ before.Writes .enter := by
        rw [writes_enter_iff hopen hmode]
        exact Directive.notMem_of_lookup hlookup
      have hsilent : (before.press .enter).1 = [] := by simp [hpress, pressCommand, hlookup]
      exact answer_of_silent hopen hsilent hquiet
    | some directive =>
      have hobey : before.press .enter =
          { before with mode := .normal, message := none }.carryOut directive := by
        simp [hpress, pressCommand, hlookup]
      have hwrites : before.Writes .enter ↔ directive.saves = true := by
        rw [writes_enter_iff hopen hmode, Directive.saves_iff hlookup]
      have hready : { before with mode := .normal, message := none : Editor }.closed = false :=
        hopen
      rw [hobey, answer_carryOut hready directive]
      simp only [hwrites]
  · have hquiet : ¬ before.Writes key := by
      rintro ⟨-, hkey, typed, -, hmode⟩
      exact henter ⟨hkey, typed, hmode⟩
    have hsilent : (before.press key).1 = [] := by
      rw [press, if_neg (by simp [hopen])]
      simp only
      split
      · rfl
      · rfl
      · next typed hmode =>
        exact silent_pressCommand _ typed fun hkey => henter ⟨hkey, typed, hmode⟩
    exact answer_of_silent hopen hsilent hquiet

end

/-! ## Calls that save -/

/-- The call has the text saved as it is, and takes the mark of change away. -/
structure Saves (before : Editor) (signals : List Signal) (after : Editor) : Prop where
  signals_eq : signals = [.save before.file before.buffer.content] ∨
    signals = [.save before.file before.buffer.content, .exit]
  buffer_eq : after.buffer = before.buffer
  unmodified : after.modified = false

/-- A directive that answers with a save saves the text as it is. -/
theorem saves_carryOut {editor : Editor} {directive : Directive} {file content : String}
    (h : .save file content ∈ (editor.carryOut directive).1) :
    editor.Saves (editor.carryOut directive).1 (editor.carryOut directive).2 := by
  cases directive with
  | write => exact ⟨.inl rfl, rfl, rfl⟩
  | writeQuit => exact ⟨.inr rfl, rfl, rfl⟩
  | quit discard =>
    exfalso
    cases discard with
    | true => simp [carryOut, close] at h
    | false =>
      rw [carryOut] at h
      split at h
      · simp at h
      · simp [close] at h

/-- A step that answers with a save saves the text as it is: only a directive does so. -/
theorem Act.saves {before after : Editor} {signals : List Signal} (h : Act before signals after)
    {file content : String} (hsave : .save file content ∈ signals) :
    before.Saves signals after := by
  cases h with
  | turn | move | edit | yank | put => simp at hsave
  | obey =>
    have hsaves := saves_carryOut hsave
    exact ⟨hsaves.signals_eq, hsaves.buffer_eq, hsaves.unmodified⟩

/-- Of a call with which a text is to be saved. -/
theorem saves_call {editor : Editor} {call : Call} {file content : String}
    (h : .save file content ∈ (editor.call call).1) :
    editor.Saves (editor.call call).1 (editor.call call).2 := by
  rcases editor.call_cases call with hsave | hclosed | ⟨-, hact⟩
  · rw [hsave]
    exact ⟨.inl rfl, rfl, rfl⟩
  · simp [hclosed] at h
  · exact hact.saves h

/-! ## Runs -/

/-- A closed editor answers nothing to any keys. -/
theorem pressAll_of_closed {editor : Editor} (h : editor.closed = true) (keys : List Key) :
    editor.pressAll keys = ([], editor) := by
  induction keys with
  | nil => rfl
  | cons key keys ih => simp [pressAll, press_of_closed h, ih]

/-- A closed editor carries no directive out any more. -/
theorem writtenTexts_of_closed {editor : Editor} (h : editor.closed = true) (keys : List Key) :
    editor.writtenTexts keys = [] := by
  induction keys with
  | nil => rfl
  | cons key keys ih => simp [writtenTexts, Writes, press_of_closed h, h, ih]

/-- No key changes the file of an editor. -/
theorem file_press (editor : Editor) (key : Key) : (editor.press key).2.file = editor.file :=
  (savesOnly_call editor (.press key)).2

/-- What an open editor answers to keys. -/
theorem answer_pressAll {editor : Editor} (hopen : editor.closed = false) (keys : List Key) :
    (editor.pressAll keys).1 = answer (editor.writtenTexts keys) (editor.pressAll keys).2 ∧
      (editor.pressAll keys).2.file = editor.file := by
  induction keys generalizing editor with
  | nil => exact ⟨by simp [pressAll, writtenTexts, answer, hopen], rfl⟩
  | cons key keys ih =>
    have hfirst := answer_press hopen key
    have hfile := file_press editor key
    cases hclosed : (editor.press key).2.closed with
    | true =>
      -- The key has closed the editor, and the others are not taken.
      rw [pressAll, writtenTexts, pressAll_of_closed hclosed, writtenTexts_of_closed hclosed,
        List.append_nil, List.append_nil]
      exact ⟨hfirst, hfile⟩
    | false =>
      obtain ⟨hothers, hsame⟩ := ih hclosed
      rw [pressAll, writtenTexts]
      refine ⟨?_, hsame.trans hfile⟩
      simp only [answer, hclosed, hothers, hfirst, hfile, hsame]
      simp

/-- **An editor saves when it is told to, and ends once.** Whatever keys the editor of a text takes,
it answers that its text at each directive that saves is to be saved into its file, in order, and
after that, exactly if it is closed, that it has ended. A closed editor answers nothing to any
further keys and stays as it is. -/
theorem signals_pressAll_start (file content : String) (keys : List Key) :
    let editor := start file content
    let ran := editor.pressAll keys
    ran.1 = (editor.writtenTexts keys).map (.save file) ++ (if ran.2.closed then [.exit] else []) ∧
      (ran.2.closed = true → ∀ more, ran.2.pressAll more = ([], ran.2)) := by
  intro editor ran
  have hopen : editor.closed = false := rfl
  obtain ⟨hanswer, hfile⟩ := answer_pressAll hopen keys
  refine ⟨?_, fun hclosed more => pressAll_of_closed hclosed more⟩
  rw [hanswer, answer, hfile]
  rfl

end PocketShell.Editor
