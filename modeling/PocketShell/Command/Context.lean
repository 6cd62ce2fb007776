import PocketShell.Login
import PocketShell.Notice
import PocketShell.Path.Home
import PocketShell.Storage.Basic
import PocketShell.Tree.FileSystem

/-!
# What commands work on

`Context` holds all that a command may read or change: the tree, the login, the file that the editor
is asked to open, the store, and the notices reported so far. It is generic in the store.
-/

namespace PocketShell

/-- A file that is to be opened in the editor. -/
structure EditRequest where
  /-- The path of the file, in normal form. -/
  path : String
  /-- The content of the file; nothing if it is yet to be made. -/
  content : String
  deriving DecidableEq, Repr

/-- All that a command may read or change. -/
structure Context (σ : Type) where
  files : FileSystem
  login : Login
  /-- The file that the editor is asked to open, until the host takes the request. -/
  request : Option EditRequest := none
  store : σ
  keys : StorageKeys
  /-- The notices reported so far, the oldest first. -/
  notices : List Notice := []

namespace Context

variable {σ : Type}

/-- The place that a path typed by the user denotes. -/
def resolve (context : Context σ) (path : String) : String :=
  Path.resolve context.login.directory (Path.expandHome context.login.home path)

/-- Reports a notice. -/
def report (context : Context σ) (notice : Notice) : Context σ :=
  { context with notices := context.notices ++ [notice] }

/-- The context with one more line in the history. -/
def record (context : Context σ) (line : String) : Context σ :=
  { context with login := context.login.record line }

/-- Edits the place that a path typed by the user denotes, and answers the fault if the edit is
refused. -/
def edit (context : Context σ) (path : String) (edit : Edit) : Option Fault × Context σ :=
  let tried := context.files.attempt (context.resolve path) edit
  (tried.1, { context with files := tried.2 })

/-- An edit asked for by a command leaves the tree that the attempt leaves, and nothing else. -/
theorem edit_snd (context : Context σ) (path : String) (edit : Edit) :
    (context.edit path edit).2 =
      { context with files := (context.files.attempt (context.resolve path) edit).2 } := by
  rw [Context.edit]

/-- Puts a written value into the store; a failure is reported and got over. -/
def save [Storage σ] (context : Context σ) (key written : String) : Context σ :=
  match Storage.save context.store key written with
  | (.ok (), store) => { context with store }
  | (.error _, store) =>
    { context with store }.report (.warning "failed to persist shell state")

/-- Saving touches the store and the notices only. -/
theorem save_eq [Storage σ] (context : Context σ) (key written : String) :
    ∃ store notices, context.save key written = { context with store, notices } := by
  unfold save
  split <;> exact ⟨_, _, rfl⟩

/-- What is saved only if something holds differs in the store and the notices at most. -/
theorem exists_ite_eq {p : Prop} [Decidable p] {context saved : Context σ}
    (h : ∃ store notices, saved = { context with store, notices }) :
    ∃ store notices, (if p then context else saved) = { context with store, notices } := by
  split
  · exact ⟨_, _, rfl⟩
  · exact h

end Context

end PocketShell
