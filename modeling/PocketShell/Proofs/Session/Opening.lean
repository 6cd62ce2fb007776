import PocketShell.Proofs.Session.Signal
import PocketShell.Proofs.Tree.Fault

/-!
# Opening the editor

The command `vi` looks at a place before the editor opens there; nothing is written before the text
is saved. Both come to the same: where the editor opens a write is made, and where it does not a
write is refused, for the reason that `vi` shows (`Command.contentToEdit_eq_error_iff`). Main
statement: `Session.opens_iff_written`, what comes of a line `vi`.
-/

namespace PocketShell

/-! ## The look and the write -/

namespace Command

variable {files : FileSystem} {path : String}

/-- What keeps the editor from opening at a place refuses a write to it. -/
theorem failsWith_of_contentToEdit {fault : Fault} (h : contentToEdit files path = .error fault)
    (content : String) (mode : WriteMode) :
    (Edit.write content mode).FailsWith files path fault := by
  unfold contentToEdit at h
  split at h
  · next entries hplace =>
    cases h
    exact .inr (by simp [FileSystem.isDirectory, hplace, Node.isDirectory])
  · cases h
  · split at h
    · cases h
    · next held hparent => cases h; exact ⟨held, hparent⟩
    · next hparent => cases h; exact FileSystem.not_isRoot_and_orphaned_iff.mpr hparent

/-- What can be opened for editing can be written to, whatever the content and the mode are. -/
theorem attempt_write_of_contentToEdit {text : String} (h : contentToEdit files path = .ok text)
    (content : String) (mode : WriteMode) :
    (files.attempt path (.write content mode)).1 = none := by
  obtain ⟨after, hmade, -⟩ :=
    FileSystem.exists_edit_write (writable_of_contentToEdit h) content mode
  rw [FileSystem.attempt_of_ok hmade]

/-- What cannot be opened for editing cannot be written to, for the same reason. -/
theorem contentToEdit_eq_error_iff {fault : Fault} (content : String) (mode : WriteMode) :
    contentToEdit files path = .error fault ↔
      (files.attempt path (.write content mode)).1 = some fault := by
  have hrefused {fault : Fault} (h : contentToEdit files path = .error fault) :
      (files.attempt path (.write content mode)).1 = some fault :=
    FileSystem.failsWith_iff.mp (failsWith_of_contentToEdit h content mode)
  refine ⟨hrefused, fun hfault => ?_⟩
  cases hcontent : contentToEdit files path with
  | error other =>
    rw [hrefused hcontent] at hfault
    cases hfault
    rfl
  | ok text =>
    rw [attempt_write_of_contentToEdit hcontent content mode] at hfault
    cases hfault

/-- The editor starts with the content of the file, or with nothing. -/
theorem read_of_contentToEdit {text : String} (h : contentToEdit files path = .ok text) :
    files.read path = .ok text ∨ files.lookup? path = none ∧ text = "" := by
  unfold contentToEdit at h
  split at h
  · cases h
  · next held hplace => cases h; exact .inl (by rw [FileSystem.read, hplace])
  · next hplace =>
    split at h
    · cases h; exact .inr ⟨hplace, rfl⟩
    · cases h
    · cases h

end Command

/-! ## The line -/

/-- A line with a command is read as a line whose name and arguments make that command. -/
theorem Line.exists_parse_of_command? {input : String} {command : Command}
    (h : command? input = some command) :
    ∃ line, parse input = .ok (some line) ∧ Command.parse? line.name line.args = some command := by
  rw [command?] at h
  split at h
  · next line hline => exact ⟨line, hline, h⟩
  · cases h

namespace Session

variable {σ : Type} [Storage σ] {now : Calendar.Moment} {session : Session σ} {input : String}

/-- What comes of a line without a redirection whose command does not break. -/
theorem execute_of_done {command : Command} {answer : Outcome × Context σ}
    (hcommand : Line.command? input = some command) (hplain : Line.redirect? input = none)
    (hrun : command.run now (session.record input) = Command.done answer) :
    session.execute now input =
      (answer.1, ⟨answer.2.persist session.login, session.hostname⟩) := by
  obtain ⟨line, hline, hparse⟩ := Line.exists_parse_of_command? hcommand
  simp only [Line.redirect?, hline] at hplain
  rw [execute_of_parse now session hline, Context.answer]
  simp only [hparse, hrun, Command.done, hplain]

section
variable {operand : String} (hcommand : Line.command? input = some (.vi (some operand)))
  (hplain : Line.redirect? input = none)
include hcommand hplain

/-- `vi` on a file that can be edited answers that the editor is opened, and sets the request; the
tree is as before. -/
theorem execute_vi_of_ok {text : String}
    (hcontent : Command.contentToEdit session.files (session.resolve operand) = .ok text) :
    ∃ store notices, session.execute now input =
      (.editorOpened,
        { session with
          toContext :=
            { session.toContext with
              files := session.files.settled, login := session.login.record input,
              request := some ⟨session.resolve operand, text⟩, store, notices } }) := by
  have hrun : (Command.vi (some operand)).run now (session.record input) =
      Command.done (.editorOpened,
        { session.record input with request := some ⟨session.resolve operand, text⟩ }) := by
    have hrecorded : Command.contentToEdit (session.record input).files
        ((session.record input).resolve operand) = .ok text := hcontent
    simp only [Command.run, Command.openEditor, hrecorded]
    rfl
  obtain ⟨store, notices, hpersist⟩ := Context.persist_eq
    { session.record input with request := some ⟨session.resolve operand, text⟩ } session.login
  refine ⟨store, notices, ?_⟩
  rw [execute_of_done hcommand hplain hrun, hpersist]
  rfl

/-- `vi` on a file that cannot be edited shows the reason, and changes nothing but the record of the
line. -/
theorem execute_vi_of_error {fault : Fault}
    (hcontent : Command.contentToEdit session.files (session.resolve operand) = .error fault) :
    ∃ store notices, session.execute now input =
      (.text ("vi: " ++ operand ++ ": " ++ fault.message),
        { session with
          toContext :=
            { session.toContext with
              files := session.files.settled, login := session.login.record input,
              store, notices } }) := by
  have hrun : (Command.vi (some operand)).run now (session.record input) =
      Command.done (.text ("vi: " ++ operand ++ ": " ++ fault.message), session.record input) := by
    have hrecorded : Command.contentToEdit (session.record input).files
        ((session.record input).resolve operand) = .error fault := hcontent
    simp only [Command.run, Command.openEditor, hrecorded]
  obtain ⟨store, notices, hpersist⟩ := (session.record input).persist_eq session.login
  refine ⟨store, notices, ?_⟩
  rw [execute_of_done hcommand hplain hrun, hpersist]
  rfl

end

/-- **`vi` opens what can be saved.** A line `vi` without a redirection makes a request for the
editor just where a text, whatever it is, could be written, and the request has the place that the
operand denotes, with the content of the file there, or none if there is no file. Elsewhere the line
shows why the write would be refused, and an earlier request stays. Either way the tree stays as it
is, and of the login all but the history. -/
theorem opens_iff_written (now : Calendar.Moment) (session : Session σ) {input operand : String}
    (hcommand : Line.command? input = some (.vi (some operand)))
    (hplain : Line.redirect? input = none) (content : String) :
    let executed := session.execute now input
    let path := session.resolve operand
    let refusal? := (session.files.attempt path (.write content .overwrite)).1
    (executed.1 = .editorOpened ↔ refusal? = none) ∧
      ((session.asked now input).isSome ↔ refusal? = none) ∧
      (refusal? = none → ∃ text, executed.2.request = some ⟨path, text⟩ ∧
        (session.files.read path = .ok text ∨ session.files.lookup? path = none ∧ text = "")) ∧
      (∀ fault, refusal? = some fault →
        executed.1 = .text ("vi: " ++ operand ++ ": " ++ fault.message) ∧
          executed.2.request = session.request) ∧
      executed.2.files.root = session.files.root ∧
      executed.2.login = session.login.record input := by
  intro executed path refusal?
  -- What is looked for before the editor opens is the same that a write would find.
  cases hcontent : Command.contentToEdit session.files path with
  | ok text =>
    have hmade : refusal? = none := Command.attempt_write_of_contentToEdit hcontent _ _
    obtain ⟨store, notices, hexecuted⟩ : ∃ store notices, executed = _ :=
      execute_vi_of_ok hcommand hplain hcontent
    obtain ⟨_, _, htaken⟩ : ∃ store notices, session.takeRequest.2.execute now input = _ :=
      execute_vi_of_ok hcommand hplain hcontent
    rw [asked, htaken, hexecuted, hmade]
    refine ⟨by simp, by simp, fun _ => ⟨text, rfl, ?_⟩, nofun, rfl, rfl⟩
    exact Command.read_of_contentToEdit hcontent
  | error fault =>
    have hrefused : refusal? = some fault :=
      (Command.contentToEdit_eq_error_iff _ _).mp hcontent
    obtain ⟨store, notices, hexecuted⟩ : ∃ store notices, executed = _ :=
      execute_vi_of_error hcommand hplain hcontent
    obtain ⟨_, _, htaken⟩ : ∃ store notices, session.takeRequest.2.execute now input = _ :=
      execute_vi_of_error hcommand hplain hcontent
    rw [asked, htaken, hexecuted, hrefused]
    refine ⟨by simp, by simp [takeRequest], nofun, fun other hother => ?_, rfl, rfl⟩
    cases hother
    exact ⟨rfl, rfl⟩

/-- In a new session a new file can be opened, and one in a directory that is missing cannot. -/
theorem opens_iff_written_of_new :
    let session := start (Settings.forUser "user") (MemoryStore.mk ∅)
    let opened := session.execute ⟨0, 0⟩ "vi draft"
    let refused := session.execute ⟨0, 0⟩ "vim gone/draft"
    (opened.1 = .editorOpened ∧
        ∃ text, opened.2.request = some ⟨"/home/user/draft", text⟩ ∧
          (session.files.read "/home/user/draft" = .ok text ∨
            session.files.lookup? "/home/user/draft" = none ∧ text = "")) ∧
      refused.1 = .text "vi: gone/draft: No such file or directory" ∧
        refused.2.request = session.request := by
  intro session opened refused
  have hplace : session.resolve "draft" = "/home/user/draft" := by decide +kernel
  have hmade :
      (session.files.attempt (session.resolve "draft") (.write "" .overwrite)).1 = none := by
    decide +kernel
  have hgone : (session.files.attempt (session.resolve "gone/draft") (.write "" .overwrite)).1 =
      some .noSuchParent := by
    decide +kernel
  obtain ⟨hopened, -, hrequest, -⟩ := opens_iff_written ⟨0, 0⟩ session
    (show Line.command? "vi draft" = some (.vi (some "draft")) by decide +kernel)
    (by decide +kernel) ""
  obtain ⟨-, -, -, hrefused, -⟩ := opens_iff_written ⟨0, 0⟩ session
    (show Line.command? "vim gone/draft" = some (.vi (some "gone/draft")) by decide +kernel)
    (by decide +kernel) ""
  rw [hplace] at hrequest hmade
  exact ⟨⟨hopened.mpr (hplace ▸ hmade), hrequest hmade⟩, hrefused _ hgone⟩

end Session

end PocketShell
