import PocketShell.Completion
import PocketShell.Prompt
import PocketShell.Session.Dispatch
import PocketShell.Session.Persistence
import PocketShell.Session.Seed

/-!
# Sessions

A session begins with what its store has of an earlier one, and otherwise with what its settings
say; what it did not find there it saves at once. From then on every line that is executed, and
every file that the editor saves, leaves the store up to date.
-/

namespace PocketShell

/-- How a session begins if its store does not know better. -/
structure Settings where
  user : String
  hostname : String
  tree : Node
  /-- The stem of the keys in the store. -/
  stem : String
  /-- The session begins at home, wherever the earlier one ended. -/
  startInHome : Bool

namespace Settings

/-- The settings for a user. -/
def forUser (user : String) : Settings where
  user := user
  hostname := "ripline"
  tree := Seed.tree user
  stem := "ripline"
  startInHome := true

instance : Inhabited Settings := ⟨forUser "user"⟩

/-- The tree of a first session, and what there is to report of it. -/
def files (settings : Settings) : FileSystem × List Notice :=
  match FileSystem.ofNode? settings.tree with
  | some files => (files, [])
  | none => (.empty, [.warning "seed filesystem is not a directory, starting empty"])

end Settings

/-- A session: a context for commands, on a host. -/
structure Session (σ : Type) extends Context σ where
  hostname : String

namespace Session

variable {σ : Type}

/-! ## The beginning -/

/-- The directory in which a session begins: the one that an earlier session ended in, else the home
directory, else the root. -/
def startDirectory (files : FileSystem) (home : String) (earlier : Option String) : String :=
  match earlier.filter fun path => files.isDirectory path with
  | some path => path
  | none => if files.isDirectory home then home else "/"

/-- The context in which a session begins, before anything is saved. -/
def opening (settings : Settings) (restored : Restored) (store : σ) : Context σ :=
  let files :=
    match restored.files with
    | some files => (files, [])
    | none => settings.files
  let home := User.home settings.user
  let earlier := if settings.startInHome then none else restored.directory
  { files := files.1
    login := .start (restored.user.getD settings.user) home (startDirectory files.1 home earlier)
    store := store
    keys := .ofStem settings.stem
    notices := restored.notices ++ files.2 }

/-- Saves what was not restored. -/
def saveUnrestored [Storage σ] (restored : Restored) (context : Context σ) : Context σ :=
  let context := if restored.files.isSome then context else context.saveTree
  let context := if restored.directory.isSome then context else context.saveDirectory
  if restored.user.isSome then context else context.saveUser

/-- Beside the store and the notices, saving what was not restored touches the mark of change
only. -/
theorem saveUnrestored_eq [Storage σ] (restored : Restored) (context : Context σ) :
    ∃ changed store notices, saveUnrestored restored context =
      { context with files := { context.files with changed }, store, notices } := by
  unfold saveUnrestored
  extract_lets afterTree afterDirectory
  obtain ⟨changed, _, _, htree⟩ : ∃ changed store notices, afterTree =
      { context with files := { context.files with changed }, store, notices } := by
    unfold afterTree
    split
    · exact ⟨_, _, _, rfl⟩
    · exact ⟨false, context.saveTree_eq⟩
  obtain ⟨_, _, hdirectory⟩ := Context.exists_ite_eq (p := restored.directory.isSome)
    afterTree.saveDirectory_eq
  obtain ⟨store, notices, huser⟩ := Context.exists_ite_eq (p := restored.user.isSome)
    afterDirectory.saveUser_eq
  refine ⟨changed, store, notices, ?_⟩
  rw [huser]
  unfold afterDirectory
  rw [hdirectory, htree]

/-- Begins a session on a store. -/
def start [Storage σ] (settings : Settings) (store : σ) : Session σ :=
  let restored := Restored.load (.ofStem settings.stem) store
  { saveUnrestored restored (opening settings restored store) with hostname := settings.hostname }

/-- A session begins as it opens, but for what is saved. -/
theorem exists_start_eq [Storage σ] (settings : Settings) (store : σ) :
    let context := opening settings (.load (.ofStem settings.stem) store) store
    ∃ changed after notices, (start settings store).toContext =
      { context with files := { context.files with changed }, store := after, notices } :=
  saveUnrestored_eq _ _

/-! ## Its course -/

/-- Executes a line. A blank one does nothing; any other is recorded first, whatever comes of it. -/
def execute [Storage σ] (now : Calendar.Moment) (session : Session σ) (input : String) :
    Outcome × Session σ :=
  if Text.isAllBlank input then (.silent, session)
  else
    let dispatched := (session.toContext.record input).dispatch now input
    (dispatched.1, { session with toContext := dispatched.2.persist session.login })

/-- A blank line does nothing, and is not even recorded. -/
theorem execute_of_blank [Storage σ] (now : Calendar.Moment) (session : Session σ) {input : String}
    (h : Text.isAllBlank input) : session.execute now input = (.silent, session) := by
  rw [execute, if_pos h]

/-- Any other line is recorded first, then its command runs, and what that has changed is saved. -/
theorem execute_of_not_blank [Storage σ] (now : Calendar.Moment) (session : Session σ)
    {input : String} (h : ¬ Text.isAllBlank input) :
    session.execute now input =
      (((session.toContext.record input).dispatch now input).1,
        ⟨((session.toContext.record input).dispatch now input).2.persist session.login,
          session.hostname⟩) := by
  rw [execute, if_neg h]

/-- Gives a file a content, and answers the fault if it cannot be written. -/
def saveFile [Storage σ] (session : Session σ) (path content : String) :
    Option Fault × Session σ :=
  let place := Path.resolve session.login.directory path
  let tried := session.files.attempt place (.write content .overwrite)
  match tried.1 with
  | some fault => (some fault, session)
  | none =>
    (none, { session with toContext := { session.toContext with files := tried.2 }.persistTree })

/-- A text that cannot be written leaves the session as it is. -/
theorem saveFile_of_error [Storage σ] (session : Session σ) {path content : String} {fault : Fault}
    (h : session.files.edit (Path.resolve session.login.directory path)
      (.write content .overwrite) = .error fault) :
    session.saveFile path content = (some fault, session) := by
  unfold saveFile
  simp only [FileSystem.attempt_of_error h]

/-- A text that can be written replaces the one in the tree, and the tree is saved. -/
theorem saveFile_of_ok [Storage σ] (session : Session σ) {path content : String}
    {files : FileSystem}
    (h : session.files.edit (Path.resolve session.login.directory path)
      (.write content .overwrite) = .ok files) :
    session.saveFile path content =
      (none, ⟨Context.persistTree { session.toContext with files }, session.hostname⟩) := by
  unfold saveFile
  simp only [FileSystem.attempt_of_ok h]

/-- Takes the request for the editor. -/
def takeRequest (session : Session σ) : Option EditRequest × Session σ :=
  (session.request, { session with request := none })

/-- Takes the notices. -/
def takeNotices (session : Session σ) : List Notice × Session σ :=
  (session.notices, { session with notices := [] })

/-! ## What it shows -/

/-- The candidates for the last word of a line. -/
def completion (session : Session σ) (input : String) : Completion :=
  .ofInput session.files session.login.directory session.login.home input

/-- The prompt. -/
def prompt (session : Session σ) : String :=
  PocketShell.prompt session.login.user session.hostname session.login.directory session.login.home

end Session

end PocketShell
