import PocketShell.Proofs.Editor.Protocol
import PocketShell.Proofs.Session.Editing
import PocketShell.Proofs.Session.Request
import PocketShell.Session.Turn

/-!
# A text that is saved while others change the tree

Between the line that made a request for the editor and the key that saves its text anything may be
asked of the session. No directory is ever taken away, so the one that is to hold the file stays;
but another may be made in the place of the file. Main statement: `Editing.read_of_save`, a text
that the editor wants saved is the content of its file at once, unless a directory stands there.
-/

namespace PocketShell

namespace Session

variable {σ : Type}

/-! ## Directories -/

/-- Changes leave every directory. -/
theorem isDirectory_of_becomes {before after : Context σ} (h : Context.Becomes before after)
    {path : String} (hpath : before.files.isDirectory path) : after.files.isDirectory path := by
  refine Context.keeps_of_steps (·.files.isDirectory path) ?_ h hpath
  intro before after hchange hbefore
  cases hchange with
  | record | handOver | settle => exact hbefore
  | act hact =>
    cases hact with
    | edit => exact FileSystem.isDirectory_attempt hbefore
    | enter | become | define | undefine | ask | report => exact hbefore

variable [Storage σ]

/-- Heeding the signals of the editor goes by changes. -/
theorem becomes_heedAll (session : Session σ) (signals : List Editor.Signal) :
    Context.Becomes session.toContext (session.heedAll signals).2.toContext := by
  induction signals generalizing session with
  | nil => exact Relation.ReflTransGen.refl
  | cons signal signals ih =>
    cases signal with
    | exit =>
      rw [heedAll_exit_snd]
      exact ih session
    | save file content =>
      rw [heedAll_save_snd]
      exact (becomes_saveFile session file content).trans (ih _)

/-- Saving files makes no directory. -/
theorem isDirectory_of_saveFile {session : Session σ} {file content path : String}
    (h : (session.saveFile file content).2.files.isDirectory path) :
    session.files.isDirectory path := by
  cases hedit : session.files.edit (Path.resolve session.login.directory file)
      (.write content .overwrite) with
  | error fault =>
    rw [saveFile_of_error session hedit] at h
    exact h
  | ok files =>
    obtain ⟨store, notices, hpersist⟩ := Context.persistTree_eq { session.toContext with files }
    rw [saveFile_of_ok session hedit, hpersist] at h
    have hattempt : (session.files.attempt (Path.resolve session.login.directory file)
        (.write content .overwrite)).2.isDirectory path := by
      rw [FileSystem.attempt_of_ok hedit]
      exact h
    exact FileSystem.isDirectory_of_attempt_write hattempt

/-- Heeding the signals of the editor makes no directory. -/
theorem isDirectory_of_heedAll {session : Session σ} {signals : List Editor.Signal} {path : String}
    (h : (session.heedAll signals).2.files.isDirectory path) : session.files.isDirectory path := by
  induction signals generalizing session with
  | nil =>
    rw [heedAll_nil_snd] at h
    exact h
  | cons signal signals ih =>
    cases signal with
    | exit =>
      rw [heedAll_exit_snd] at h
      exact ih h
    | save file content =>
      rw [heedAll_save_snd] at h
      exact isDirectory_of_saveFile (ih h)

/-! ## Saving -/

/-- A text is saved as a file unless a directory stands in its place, and then nothing happens. -/
theorem saveFile_of_isDirectory_parent {session : Session σ} {path : String}
    (hpath : Path.normalize path = path) (hname : Path.components path ≠ [])
    (hparent : session.files.isDirectory (Path.parent path)) (content : String) :
    (session.files.isDirectory path →
        session.saveFile path content = (some .isADirectory, session)) ∧
      (¬ session.files.isDirectory path →
        (session.saveFile path content).1 = none ∧
          (session.saveFile path content).2.files.read path = .ok content) := by
  constructor
  · intro hdirectory
    have hresolve : Path.resolve session.login.directory path = path := by
      rw [← hpath, Path.resolve_normalize]
    exact saveFile_of_error session
      (hresolve.symm ▸ FileSystem.edit_write_of_isDirectory hdirectory content .overwrite)
  · intro hplace
    have hwritable := FileSystem.writable_iff.mpr ⟨hname, hparent, hplace⟩
    obtain ⟨files, hedit, -, hsave⟩ := exists_saveFile_eq hpath hwritable content
    obtain ⟨store, notices, hpersist⟩ := Context.persistTree_eq { session.toContext with files }
    rw [hsave, hpersist]
    have hfile := (FileSystem.edit_effect hedit).kind?_of_overwrite
    exact ⟨rfl, FileSystem.read_eq_ok_of_kind? hfile⟩

end Session

namespace Editing

variable {σ : Type} [Storage σ]

/-- The editor is that of a file which a directory is there to hold. -/
structure Housed (path : String) (editing : Editing σ) : Prop where
  file : editing.editor.file = path
  parent : editing.session.files.isDirectory (Path.parent path)

/-- A turn leaves the file of the editor and the directory that holds it. -/
theorem Housed.take {path : String} {editing : Editing σ} (h : editing.Housed path) (turn : Turn) :
    (editing.take turn).Housed path := by
  obtain ⟨hfile, hparent⟩ := h
  constructor
  · cases turn with
    | call call =>
      rw [editor_take_call]
      exact hfile
    | edit call =>
      rw [editor_take_edit]
      exact (Editor.savesOnly_call editing.editor call).2.trans hfile
  · cases turn with
    | call call =>
      rw [session_take_call]
      exact Session.isDirectory_of_becomes (Session.becomes_call editing.session call) hparent
    | edit call =>
      rw [session_take_edit]
      exact Session.isDirectory_of_becomes (Session.becomes_heedAll editing.session _) hparent

/-- Only a line that is executed can make a directory. -/
theorem isDirectory_of_takeAll {editing : Editing σ} {turns : List Turn} {path : String}
    (hturns : ∀ now line, .call (.execute now line) ∉ turns)
    (h : (editing.takeAll turns).session.files.isDirectory path) :
    editing.session.files.isDirectory path := by
  -- Followed forwards: no turn but a line makes a directory where none was.
  by_contra hnone
  refine takeAll_induction (fun editing => ¬ editing.session.files.isDirectory path) ?_ hnone h
  intro editing turn hturn hnone hdirectory
  refine hnone ?_
  cases turn with
  | edit call =>
    rw [session_take_edit] at hdirectory
    exact Session.isDirectory_of_heedAll hdirectory
  | call call =>
    rw [session_take_call] at hdirectory
    cases call with
    | execute now line => exact absurd hturn (hturns now line)
    | saveFile file content =>
      rw [Session.call_saveFile_snd] at hdirectory
      exact Session.isDirectory_of_saveFile hdirectory
    | complete input =>
      rw [Session.call_complete_snd] at hdirectory
      exact hdirectory
    | takeRequest =>
      rw [Session.call_takeRequest_snd] at hdirectory
      exact hdirectory

/-- A turn in which a text is to be saved comes to that save. -/
theorem take_edit_of_save {editing : Editing σ} {call : Editor.Call} {file content : String}
    (h : .save file content ∈ (editing.editor.call call).1) :
    file = editing.editor.file ∧ content = (editing.take (.edit call)).editor.buffer.content ∧
      (editing.take (.edit call)).editor.modified = false ∧
      (editing.take (.edit call)).session = (editing.session.saveFile file content).2 := by
  rw [editor_take_edit, session_take_edit]
  obtain ⟨hsignals, hbuffer, hunmodified⟩ := Editor.saves_call h
  have hsave : file = editing.editor.file ∧ content = editing.editor.buffer.content := by
    rcases hsignals with hsignals | hsignals
    · simpa [hsignals] using h
    · simpa [hsignals] using h
  obtain ⟨rfl, rfl⟩ := hsave
  refine ⟨rfl, congrArg Buffer.content hbuffer.symm, hunmodified, ?_⟩
  rcases hsignals with hsignals | hsignals
  · rw [hsignals, Session.heedAll_save_snd, Session.heedAll_nil_snd]
  · rw [hsignals, Session.heedAll_save_snd, Session.heedAll_exit_snd, Session.heedAll_nil_snd]

/-- **A text that is saved is the content of its file, if no directory is in the way.** Let a line
make a request for the editor. Whatever is then asked of the session and of the editor of that
request, in any order, every text that the editor wants saved is its whole text, it goes to that
file, and the mark of change is taken away. Unless a directory stands in the place of the file,
reading the file gives this text at once; otherwise the save is refused, and the session stays as it
is. After that line no directory stands there, and one can later only if another line has been
executed since. -/
theorem read_of_save {now : Calendar.Moment} {session : Session σ} {input : String}
    {request : EditRequest} (hasked : session.asked now input = some request)
    (turns : List Turn) (call : Editor.Call) :
    let opened := (session.execute now input).2
    let editing := (Editing.mk opened (Session.editorFor request)).takeAll turns
    let after := editing.take (.edit call)
    (∀ file content, .save file content ∈ (editing.editor.call call).1 →
      file = request.path ∧ content = after.editor.buffer.content ∧ after.editor.modified = false ∧
        (¬ editing.session.files.isDirectory file →
          after.session.files.read file = .ok content) ∧
        (editing.session.files.isDirectory file →
          (editing.session.saveFile file content).1 = some .isADirectory ∧
            after.session = editing.session)) ∧
      ((∀ now line, .call (.execute now line) ∉ turns) →
        ¬ editing.session.files.isDirectory request.path) := by
  intro opened editing after
  obtain ⟨hnormal, hwritable⟩ := Session.awaits_of_asked hasked
  obtain ⟨hname, hparent, hfree⟩ := FileSystem.writable_iff.mp hwritable
  have hopened : (Editing.mk opened (Session.editorFor request)).Housed request.path :=
    ⟨rfl, hparent⟩
  have hhoused : editing.Housed request.path :=
    takeAll_induction (·.Housed request.path) (fun _ turn _ h => h.take turn) hopened
  constructor
  · intro file content hsave
    obtain ⟨hfile, hcontent, hunmodified, hafter⟩ := take_edit_of_save hsave
    obtain rfl : file = request.path := hfile.trans hhoused.file
    obtain ⟨hrefused, hsaved⟩ :=
      Session.saveFile_of_isDirectory_parent hnormal hname hhoused.parent content
    refine ⟨rfl, hcontent, hunmodified, fun hplace => ?_, fun hdirectory => ?_⟩
    · rw [hafter]
      exact (hsaved hplace).2
    · rw [hafter, hrefused hdirectory]
      exact ⟨rfl, rfl⟩
  · intro hturns hdirectory
    have hearlier := isDirectory_of_takeAll hturns hdirectory
    exact hfree hearlier

/-- Another directory is made while the text is being typed. -/
theorem read_of_save_of_mkdir :
    let session : Session MemoryStore :=
      { files := .empty, login := .start "user" "/" "/", store := ⟨∅⟩, keys := .ofStem "shell",
        hostname := "host" }
    let request : EditRequest := ⟨"/notes", ""⟩
    let typed := [.char 'i', .char 'h', .char 'i', .escape, .char ':', .char 'w']
    let turns := .call (.execute ⟨0, 0⟩ "mkdir log") :: typed.map fun key => .edit (.press key)
    let opened := (session.execute ⟨0, 0⟩ "vi notes").2
    let editing := (Editing.mk opened (Session.editorFor request)).takeAll turns
    session.asked ⟨0, 0⟩ "vi notes" = some request ∧
      (editing.take (.edit (.press .enter))).session.files.read "/notes" = .ok "hi" := by
  intro session request typed turns
  have hasked : session.asked ⟨0, 0⟩ "vi notes" = some request := by decide +kernel
  have hsaves := (read_of_save hasked turns (.press .enter)).1 "/notes" "hi"
  obtain ⟨-, -, -, hread, -⟩ := hsaves (by decide +kernel)
  exact ⟨hasked, hread (by decide +kernel)⟩

/-- A directory is made in the place of the file, and the editor reports a text as written that is
nowhere. -/
theorem read_ne_of_mkdir :
    let session := Session.start (Settings.forUser "user") (MemoryStore.mk ∅)
    let request : EditRequest := ⟨"/home/user/notes.txt", ""⟩
    let typed := [.char 'i', .char 'h', .char 'i', .escape, .char ':', .char 'w']
    let turns :=
      .call (.execute ⟨0, 0⟩ "mkdir notes.txt") :: typed.map fun key => .edit (.press key)
    let opened := (session.execute ⟨0, 0⟩ "vi notes.txt").2
    let editing := (Editing.mk opened (Session.editorFor request)).takeAll turns
    let after := editing.take (.edit (.press .enter))
    session.asked ⟨0, 0⟩ "vi notes.txt" = some request ∧
      .save request.path "hi" ∈ (editing.editor.call (.press .enter)).1 ∧
      after.editor.modified = false ∧ after.editor.message = some (.written request.path 1) ∧
      after.session.files.read request.path ≠ .ok "hi" := by
  decide +kernel

end Editing

end PocketShell
