import PocketShell.Proofs.Command.Frame
import PocketShell.Proofs.Line.Print
import PocketShell.Proofs.Session.Beginning

/-!
# What a line leaves alone

A line can be refused before a command runs: it is blank, its redirection has no target, or its name
is not known. `Line.Refused` lists these cases. Such a line is recorded unless it is blank, and
nothing else happens (`Session.execute_of_refused`). Main statement: `Session.frame_of_commands`,
which adds what holds of all commands.
-/

namespace PocketShell

/-- The line asks for nothing that could be done. -/
inductive Line.Refused (input : String) : Prop
  | blank : Text.isAllBlank input → Refused input
  /-- There is nothing after the mark of a redirection. -/
  | untargeted : parse input = .error .missingRedirectTarget → Refused input
  | unknown {line : Line} : parse input = .ok (some line) → line.name ∉ Command.names →
      Refused input

/-- A line that asks for nothing changes nothing when it is run. -/
theorem Context.dispatch_of_refused {σ : Type} [Storage σ] (now : Calendar.Moment)
    (context : Context σ) {input : String} (h : Line.Refused input) :
    (context.dispatch now input).2 = context := by
  cases h with
  | blank hblank =>
    have hnone := Line.parse_of_blank (by simpa [Text.isAllBlank] using hblank)
    simp only [dispatch, hnone]
  | untargeted herror => simp only [dispatch, herror]
  | unknown hline hname =>
    simp only [dispatch, hline, answer, Command.parse?_eq_none_iff.mpr hname]

namespace Session

variable {σ : Type} [Storage σ]

/-- A line that asks for nothing is recorded, unless it is blank, and changes nothing else. -/
theorem execute_of_refused (now : Calendar.Moment) {session : Session σ}
    (hsettled : session.files.changed = false) {input : String} (h : Line.Refused input) :
    (session.execute now input).2 =
      if Text.isAllBlank input then session
      else { session with login := session.login.record input } := by
  split
  · next hblank => rw [execute_of_blank now session hblank]
  · next hblank =>
    have hpersist : (session.record input).persist session.login = session.record input :=
      (session.record input).persist_eq_self rfl rfl hsettled
    rw [execute_of_not_blank now session hblank, Context.dispatch_of_refused now _ h, hpersist]
    rfl

/-- **The frame of every command.** Of all that it works on, a command changes its own part only,
and never the history. A `cd`, `su` or `vi` that shows why it is refused changes nothing at all. A
line that is refused before a command runs leaves the session as it is, but that it is recorded
unless it is blank; on any store, so that nothing is saved. -/
theorem frame_of_commands (now : Calendar.Moment) :
    (∀ (context : Context σ) (command : Command),
      context.ChangesOnly command.part? (command.run now context).2) ∧
    (∀ (context : Context σ) (operand : Option String),
      ∀ command ∈ [Command.cd operand, .su operand, .vi operand], ∀ text ≠ "",
        (command.run now context).1 = .ok (.text text) → (command.run now context).2 = context) ∧
    ∀ (settings : Settings) (store : σ) (calls : List Call) (input : String), Line.Refused input →
      let session := (start settings store).after calls
      (session.execute now input).2 =
        if Text.isAllBlank input then session
        else { session with login := session.login.record input } :=
  ⟨fun context command => Command.changesOnly_run now context command,
    fun _ _ _ hcommand _ htext h => Command.run_of_refused now hcommand htext h,
    fun settings store calls _ h =>
      execute_of_refused now (changed_after settings store calls) h⟩

/-- A directory that is not there is not entered, and a name that is not known is recorded. -/
theorem frame_of_commands_gone :
    let session := start (Settings.forUser "user") (MemoryStore.mk ∅)
    ((Command.cd (some "gone")).run ⟨0, 0⟩ session.toContext).2 = session.toContext ∧
      (session.execute ⟨0, 0⟩ "gone > notes").2 =
        { session with login := session.login.record "gone > notes" } := by
  intro session
  obtain ⟨-, hrefused, hline⟩ := frame_of_commands (σ := MemoryStore) ⟨0, 0⟩
  have hgone : (Command.changeDirectory session.toContext (some "gone")).1 =
      .text "cd: gone: No such file or directory" := by
    decide +kernel
  have hparse : Line.parse "gone > notes" =
      .ok (some ⟨"gone", [], some ⟨"notes", .overwrite⟩⟩) := rfl
  have hunknown : Line.Refused "gone > notes" := .unknown hparse (by decide +kernel)
  exact ⟨hrefused _ (some "gone") _ (.head _) _ (by decide) (congrArg Except.ok hgone),
    hline _ _ [] _ hunknown⟩

end Session

end PocketShell
