import PocketShell.Terminal.Basic

/-!
# Two loops over the lines

A session can be read for by two loops, one inside the other. `Loops.prompt` prompts, and answers
the line that comes; when a line opens an editor, `Loops.edit` takes over the lines that are left
and, once the editor is closed, hands back those that it has not read. That the two do what
`Terminal.run` does is proved of them.
-/

namespace PocketShell

/-- What is handed over when a loop goes on after another: what has been shown, the session, the
clock, and the lines that are left. -/
structure Handover (σ : Type) where
  shown : String
  session : Session σ
  clock : Calendar.Clock
  lines : List String

namespace Loops

open Terminal

variable {σ : Type} [Storage σ]

/-- The inner loop. While the editor is open it is shown and takes a line. -/
def edit (clock : Calendar.Clock) (session : Session σ) (editor : Editor) :
    List String → Handover σ
  | [] =>
    if editor.closed then ⟨"", session, clock, []⟩
    else ⟨screen editor ++ editorLoss, session, clock, []⟩
  | line :: lines =>
    if editor.closed then ⟨"", session, clock, line :: lines⟩
    else
      let typed := session.type editor (Key.sequence line)
      let handed := edit clock.later typed.2 typed.1 lines
      { handed with shown := screen editor ++ handed.shown }

/-- What becomes of an outcome, with the lines that come after: the editor that it asks for, if any,
takes over. -/
def respond (clock : Calendar.Clock) (executed : Outcome × Session σ) (lines : List String) :
    Handover σ :=
  if executed.1 = .editorOpened then
    match executed.2.takeRequest with
    | (some request, session) =>
      let handed := edit clock session (Session.editorFor request) lines
      { handed with shown := editorHint ++ handed.shown }
    | (none, session) => ⟨"", session, clock, lines⟩
  else ⟨shown executed.1, executed.2, clock, lines⟩

/-- What becomes of a line, with the lines that come after. -/
def answer (clock : Calendar.Clock) (session : Session σ) (line : String) (lines : List String) :
    Handover σ :=
  match Text.dropEnding? "\t" line with
  | some typed => ⟨shownCompletion (session.completion typed) typed, session, clock.later, lines⟩
  | none => respond clock.later (session.execute clock.now line) lines

/-- The inner loop hands no line back that it has read. -/
theorem length_lines_edit_le (clock : Calendar.Clock) (session : Session σ) (editor : Editor)
    (lines : List String) : (edit clock session editor lines).lines.length ≤ lines.length := by
  induction lines generalizing clock session editor with
  | nil =>
    rw [edit]
    split
    · exact Nat.le_refl _
    · exact Nat.le_refl _
  | cons line lines ih =>
    rw [edit]
    split
    · exact Nat.le_refl _
    · exact Nat.le_succ_of_le (ih _ _ _)

/-- No line comes back that has been read. -/
theorem length_lines_answer_le (clock : Calendar.Clock) (session : Session σ) (line : String)
    (lines : List String) : (answer clock session line lines).lines.length ≤ lines.length := by
  rw [answer]
  split
  · exact Nat.le_refl _
  · rw [respond]
    split
    · split
      · exact length_lines_edit_le _ _ _ _
      · exact Nat.le_refl _
    · exact Nat.le_refl _

/-- The outer loop: what is shown, and the session at the end of the lines. -/
def prompt (clock : Calendar.Clock) (session : Session σ) : List String → String × Session σ
  | [] => (shownPrompt session ++ "\n", session)
  | line :: lines =>
    let handed := answer clock session line lines
    let others := prompt handed.clock handed.session handed.lines
    (shownPrompt session ++ handed.shown ++ others.1, others.2)
termination_by lines => lines.length
decreasing_by exact Nat.lt_succ_of_le (length_lines_answer_le clock session line lines)

end Loops

end PocketShell
