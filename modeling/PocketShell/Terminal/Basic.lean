import PocketShell.Editor.Screen
import PocketShell.Session.Editing
import PocketShell.Terminal.Input

/-!
# The terminal

A terminal lets one type into a session line by line. While an editor is open a line is read as keys
for it; otherwise a line that ends with a tab asks for completion, and any other is executed. A
terminal for a single line ends as soon as that line has been dealt with. `Terminal.take` says what
comes of anything that arrives, `Terminal.run` of all that arrives.
-/

namespace PocketShell

/-- A session with the editor that is open in it, if any. -/
structure Terminal (σ : Type) where
  session : Session σ
  editor : Option Editor
  /-- There is a single line to be executed. -/
  single : Bool

namespace Terminal

variable {σ : Type}

/-- The terminal has nothing left to do. -/
def isDone (terminal : Terminal σ) : Bool :=
  terminal.single && terminal.editor.isNone

/-! ## What is shown -/

/-- Lines as they are printed. -/
def printed (lines : List String) : String :=
  String.join (lines.map (· ++ "\n"))

/-- The control sequence that clears the screen. -/
def clearSequence : String := "\x1b[2J\x1b[H"

/-- How an outcome is shown. -/
def shown : Outcome → String
  | .text value => if value = "" then "" else value ++ "\n"
  | .clearScreen => clearSequence
  | .editorOpened => ""
  | .userSwitched _ => ""

/-- How candidates for a line are shown: none, the line extended by the only one, or all. -/
def shownCompletion (completion : Completion) (line : String) : String :=
  match completion.candidates with
  | [] => ""
  | [_] => completion.extend line ++ "\n"
  | candidates => "  ".intercalate candidates ++ "\n"

/-- The prompt with a blank after it. -/
def shownPrompt (session : Session σ) : String :=
  session.prompt ++ " "

/-- The screen of an editor. -/
def screen (editor : Editor) : String :=
  printed (editor.rows ++ [editor.statusLine])

/-- What is shown when something is to be typed. -/
def display (terminal : Terminal σ) : String :=
  match terminal.editor with
  | some editor => screen editor
  | none => shownPrompt terminal.session

/-- How keys are typed into an editor. -/
def editorHint : String := "(vi: enter keys in vim notation, e.g. iHello<Esc>:wq<CR>)\n"

/-- What becomes of an editor at the end of the input. -/
def editorLoss : String := "vi: input ended, unsaved changes discarded\n"

/-- What is shown at the end of the input. An editor is left first, then the terminal. -/
def farewell (terminal : Terminal σ) : String :=
  match terminal.editor with
  | none => "\n"
  | some _ =>
    if terminal.single then editorLoss else editorLoss ++ shownPrompt terminal.session ++ "\n"

/-! ## Lines -/

/-- Shows an outcome, and opens the editor if it asks for that. -/
def respond (terminal : Terminal σ) (outcome : Outcome) : String × Terminal σ :=
  if outcome = .editorOpened then
    match terminal.session.takeRequest with
    | (some request, session) =>
      (editorHint, { terminal with session, editor := Session.editorFor request })
    | (none, session) => ("", { terminal with session })
  else (shown outcome, terminal)

/-- Executes a line. -/
def execute [Storage σ] (now : Calendar.Moment) (terminal : Terminal σ) (line : String) :
    String × Terminal σ :=
  let executed := terminal.session.execute now line
  { terminal with session := executed.2 }.respond executed.1

/-- Lets the editor take keys; it is gone once it is closed. -/
def type [Storage σ] (terminal : Terminal σ) (editor : Editor) (keys : List Key) : Terminal σ :=
  let typed := terminal.session.type editor keys
  { terminal with
    session := typed.2
    editor := if typed.1.closed then none else some typed.1 }

/-- What a line comes to: what is shown for it, and the terminal after it. -/
def feed [Storage σ] (now : Calendar.Moment) (terminal : Terminal σ) (line : String) :
    String × Terminal σ :=
  match terminal.editor with
  | some editor => ("", terminal.type editor (Key.sequence line))
  | none =>
    match Text.dropEnding? "\t" line with
    | some typed => (shownCompletion (terminal.session.completion typed) typed, terminal)
    | none => terminal.execute now line

/-! ## Runs -/

/-- The terminal of a session at its beginning, with a greeting, or with a single line that is
executed at once. -/
def start [Storage σ] (now : Calendar.Moment) (session : Session σ) :
    Option String → String × Terminal σ
  | none => (Seed.greeting, ⟨session, none, false⟩)
  | some line => { session, editor := none, single := true : Terminal σ }.execute now line

/-- What comes of an arrival: what is shown, the terminal after it, and the exit code if the
terminal ends with it. -/
def take [Storage σ] (now : Calendar.Moment) (terminal : Terminal σ) :
    Input → String × Terminal σ × Option Nat
  | .line text =>
    let fed := terminal.feed now text
    (fed.1, fed.2, if fed.2.isDone then some 0 else none)
  | .invalid => ("", terminal, some 1)
  | .ended => (terminal.farewell, terminal, some 0)

/-- What comes of all that arrives: what is shown, the terminal at the end, and the exit code. The
clock is read at each arrival. -/
def run [Storage σ] (clock : Calendar.Clock) (terminal : Terminal σ) :
    List Input → String × Terminal σ × Nat
  | [] => ("", terminal, 0)
  | input :: inputs =>
    if terminal.isDone then ("", terminal, 0)
    else
      match terminal.take clock.now input with
      | (text, terminal', some code) => (terminal.display ++ text, terminal', code)
      | (text, terminal', none) =>
        let others := run clock.later terminal' inputs
        (terminal.display ++ text ++ others.1, others.2)

end Terminal

end PocketShell
