import PocketShell.Proofs.Editor.Protocol
import PocketShell.Session.Turn
import PocketShell.Terminal.Loops

/-!
# One consumer for every line

Whoever reads the lines of a session, each line has one consumer: the editor that is open, nobody if
it asks for completion, or else the session. `Terminal.consume` says what the line leaves. A whole
run leaves what the lines leave one after another, and the two loops that share the lines show and
leave the same. Main statement: `Loops.prompt_eq_foldl`.
-/

namespace PocketShell

variable {σ : Type} [Storage σ]

/-! ## The consumer of a line -/

namespace Session

/-- What is left of a session and of its editor by keys that the editor takes one by one, each of
its signals heeded at once. Once it is closed it is gone, and the keys after that are lost. -/
def typeUntilClosed (session : Session σ) (editor : Editor) :
    List Key → Session σ × Option Editor
  | [] => (session, if editor.closed then none else some editor)
  | key :: keys =>
    if editor.closed then (session, none)
    else
      let pressed := editor.press key
      typeUntilClosed (session.heedAll pressed.1).2 pressed.2 keys

/-- To heed the signals key by key until the editor is closed comes to the same as typing all keys:
a closed editor sends none. -/
theorem typeUntilClosed_eq (session : Session σ) (editor : Editor) (keys : List Key) :
    session.typeUntilClosed editor keys =
      ((session.type editor keys).2,
        if (session.type editor keys).1.closed then none else some (session.type editor keys).1) := by
  induction keys generalizing session editor with
  | nil => rfl
  | cons key keys ih =>
    rw [typeUntilClosed]
    split
    · next hclosed => simp [type, Editor.pressAll_of_closed hclosed, hclosed]
    · rw [ih]
      simp only [type, Editor.pressAll, heedAll_append_snd]
      rfl

end Session

namespace Terminal

/-- What a line leaves. An open editor takes its keys; otherwise it changes nothing if it ends with
a tab, and is executed if it does not, which may open an editor. -/
def consume (now : Calendar.Moment) (terminal : Terminal σ) (line : String) : Terminal σ :=
  match terminal.editor with
  | some editor =>
    let left := terminal.session.typeUntilClosed editor (Key.sequence line)
    { terminal with session := left.1, editor := left.2 }
  | none =>
    if Text.endsWith "\t" line then terminal
    else
      let executed := terminal.session.execute now line
      if executed.1 = .editorOpened then
        let taken := executed.2.takeRequest
        { terminal with session := taken.2, editor := taken.1.map Session.editorFor }
      else { terminal with session := executed.2 }

omit [Storage σ] in
/-- What is left of a terminal without an editor by an outcome: if the outcome asks for the editor,
the request is taken. -/
theorem respond_snd (session : Session σ) (single : Bool) (outcome : Outcome) :
    (Terminal.respond ⟨session, none, single⟩ outcome).2 =
      if outcome = .editorOpened then
        ⟨session.takeRequest.2, session.takeRequest.1.map Session.editorFor, single⟩
      else ⟨session, none, single⟩ := by
  rw [respond]
  split
  · split
    · next htaken => simp [htaken]
    · next htaken => simp [htaken]
  · rfl

/-- What a terminal becomes with a line. -/
theorem feed_snd (now : Calendar.Moment) (terminal : Terminal σ) (line : String) :
    (terminal.feed now line).2 = terminal.consume now line := by
  obtain ⟨session, editor?, single⟩ := terminal
  cases editor? with
  | some editor => simp [feed, consume, Session.typeUntilClosed_eq, type]
  | none =>
    simp only [feed, consume, ← Text.isSome_dropEnding?]
    split
    · next typed htyped => simp [htyped]
    · next htyped => simp [htyped, execute, respond_snd]

/-- A line does not change whether the terminal takes one command only. -/
@[simp] theorem single_consume (now : Calendar.Moment) (terminal : Terminal σ) (line : String) :
    (terminal.consume now line).single = terminal.single := by
  rw [consume]
  split
  · rfl
  · split
    · rfl
    · simp only
      split
      · rfl
      · rfl

/-! ## Runs -/

/-- What arrives with some lines. -/
def arrivals (lines : List String) : List Input :=
  lines.map .line ++ [.ended]

section
variable {terminal : Terminal σ} (clock : Calendar.Clock)

omit [Storage σ] in
/-- A terminal that takes more than one command is not done before its input ends. -/
theorem isDone_of_lasting (h : terminal.single = false) : terminal.isDone = false := by
  rw [isDone, h, Bool.false_and]

/-- At the end of the input the prompt and the farewell are shown. -/
theorem run_ended (h : terminal.single = false) :
    run clock terminal (arrivals []) =
      (terminal.display ++ terminal.farewell, terminal, 0) := by
  simp [arrivals, run, take, isDone_of_lasting h]

/-- A run shows the prompt and what the first line brings, and goes on with the other lines. -/
theorem run_line (h : terminal.single = false) (line : String) (lines : List String) :
    run clock terminal (arrivals (line :: lines)) =
      (terminal.display ++ (terminal.feed clock.now line).1 ++
        (run clock.later (terminal.feed clock.now line).2 (arrivals lines)).1,
        (run clock.later (terminal.feed clock.now line).2 (arrivals lines)).2) := by
  have hafter : (terminal.feed clock.now line).2.isDone = false :=
    isDone_of_lasting (by rw [feed_snd, single_consume, h])
  simp [arrivals, run, take, isDone_of_lasting h, hafter]

/-- A run leaves what its lines leave one after another. -/
theorem run_snd (h : terminal.single = false) (lines : List String) :
    (run clock terminal (arrivals lines)).2 =
      (lines.zipIdx.foldl (fun terminal (line, n) => terminal.consume (clock.shows n) line)
        terminal, 0) := by
  induction lines generalizing clock terminal with
  | nil => rw [run_ended clock h]; rfl
  | cons line lines ih =>
    have hlasting : (terminal.consume clock.now line).single = false := by rw [single_consume, h]
    rw [run_line clock h, feed_snd, ih clock.later hlasting, List.zipIdx_cons, List.foldl_cons,
      List.zipIdx_succ, List.foldl_map]
    rfl

end

end Terminal

/-! ## The two loops -/

namespace Loops

open Terminal

/-- What a run on some lines, with an editor open or not, has shown, and the session at its end. -/
def flat (clock : Calendar.Clock) (session : Session σ) (editor? : Option Editor)
    (lines : List String) : String × Session σ :=
  let ran := run clock ⟨session, editor?, false⟩ (arrivals lines)
  (ran.1, ran.2.1.session)

/-- What there is to see of a run that goes on after a loop. -/
def resumed (handed : Handover σ) : String × Session σ :=
  let others := flat handed.clock handed.session none handed.lines
  (handed.shown ++ others.1, others.2)

/-- The inner loop hands over what the run is at that point. -/
theorem flat_edit (clock : Calendar.Clock) (session : Session σ) (editor : Editor)
    (lines : List String) :
    flat clock session (if editor.closed then none else some editor) lines =
      resumed (edit clock session editor lines) := by
  -- The loop ends where the editor is closed; from there on the run has no editor open.
  induction lines generalizing clock session editor with
  | nil =>
    cases hclosed : editor.closed with
    | true => simp [edit, resumed, hclosed]
    | false =>
      simp [edit, resumed, flat, hclosed, run_ended, display, farewell, String.append_assoc]
  | cons line lines ih =>
    cases hclosed : editor.closed with
    | true => simp [edit, resumed, hclosed]
    | false =>
      have hothers := ih clock.later (session.type editor (Key.sequence line)).2
        (session.type editor (Key.sequence line)).1
      simp only [flat, resumed, Prod.mk.injEq] at hothers
      simp [edit, resumed, flat, hclosed, run_line, display, feed, type, hothers,
        String.append_assoc]

/-- Without a line only the prompt is shown, with a line break. -/
theorem flat_nil (clock : Calendar.Clock) (session : Session σ) :
    flat clock session none [] = (shownPrompt session ++ "\n", session) := by
  simp [flat, run_ended, display, farewell]

/-- What becomes of an outcome is the same in the outer loop. -/
theorem resumed_respond (clock : Calendar.Clock) (executed : Outcome × Session σ)
    (lines : List String) :
    let responded := Terminal.respond ⟨executed.2, none, false⟩ executed.1
    let others := run clock responded.2 (arrivals lines)
    resumed (respond clock executed lines) = (responded.1 ++ others.1, others.2.1.session) := by
  obtain ⟨outcome, session⟩ := executed
  by_cases hopened : outcome = .editorOpened
  · rcases htaken : session.takeRequest with ⟨request?, after⟩
    cases request? with
    | some request =>
      have hedit := flat_edit clock after (Session.editorFor request) lines
      -- The editor of a request is open.
      rw [if_neg (by rintro ⟨⟩)] at hedit
      simp only [flat, resumed, Prod.mk.injEq] at hedit
      simp [respond, Terminal.respond, hopened, htaken, resumed, flat, hedit, String.append_assoc]
    | none => simp [respond, Terminal.respond, hopened, htaken, resumed, flat]
  · simp [respond, Terminal.respond, hopened, resumed, flat]

/-- What becomes of a line is the same in the outer loop. -/
theorem flat_cons (clock : Calendar.Clock) (session : Session σ) (line : String)
    (lines : List String) :
    let others := resumed (answer clock session line lines)
    flat clock session none (line :: lines) = (shownPrompt session ++ others.1, others.2) := by
  rw [answer]
  split
  · next typed htyped =>
    simp [flat, run_line, display, feed, htyped, resumed, String.append_assoc]
  · next htyped =>
    simp [flat, run_line, display, feed, htyped, execute, resumed_respond, String.append_assoc]

/-- The two loops show and leave what the run does. -/
theorem prompt_eq_flat (clock : Calendar.Clock) (session : Session σ) (lines : List String) :
    prompt clock session lines = flat clock session none lines := by
  induction clock, session, lines using prompt.induct with
  | case1 clock session => rw [prompt, flat_nil]
  | case2 clock session line lines handed ih =>
    rw [prompt, ih, flat_cons, resumed, String.append_assoc]

/-- **One consumer for every line.** Whatever the session and the lines are, the two loops leave
what the consumers of the lines leave one after another: each line is consumed once, in order, and
none is lost when an editor opens, when it closes, or at the end. They show and leave the same as
the run on the lines, which leaves what the consumers do, its editor included, and has the exit
code 0. -/
theorem prompt_eq_foldl (clock : Calendar.Clock) (session : Session σ) (lines : List String) :
    let looped := prompt clock session lines
    let ran := run clock ⟨session, none, false⟩ (arrivals lines)
    let left := lines.zipIdx.foldl
      (fun terminal (line, n) => terminal.consume (clock.shows n) line) ⟨session, none, false⟩
    looped.2 = left.session ∧ looped = (ran.1, ran.2.1.session) ∧ ran.2 = (left, 0) := by
  intro looped ran left
  have hran : ran.2 = (left, 0) := run_snd clock rfl lines
  have hlooped : looped = (ran.1, ran.2.1.session) := prompt_eq_flat clock session lines
  refine ⟨?_, hlooped, hran⟩
  rw [hlooped, hran]

end Loops

end PocketShell
