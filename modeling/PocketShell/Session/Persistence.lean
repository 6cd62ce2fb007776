import PocketShell.Command.Context
import PocketShell.Tree.Document

/-!
# What a session keeps

A session keeps three things in its store: its tree, its current directory and its current user,
each in its written form. `Restored.load` reads them back; what is not there, or is not the written
form of anything, is left out and reported. `Context.persist` saves what has changed.
-/

namespace PocketShell

/-! ## Reading back -/

/-- What a store has of an earlier session. -/
structure Restored where
  files : Option FileSystem
  directory : Option String
  user : Option String
  /-- What there was to report. -/
  notices : List Notice

namespace Restored

/-- The tree with a written form, and what there is to report. -/
def readFiles : Option String → Option FileSystem × List Notice
  | none => (none, [])
  | some written =>
    match Node.ofJson? written with
    | none => (none, [.warning "ignoring corrupt persisted filesystem"])
    | some node =>
      match FileSystem.ofNode? node with
      | some files => (some files, [])
      | none => (none, [.warning "ignoring persisted filesystem"])

/-- The text with a written form, and what there is to report. -/
def readText : Option String → Option String × List Notice
  | none => (none, [])
  | some written =>
    match Json.unquote? written with
    | some value => (some value, [])
    | none => (none, [.warning "ignoring corrupt persisted value"])

/-- What a store has under the keys. A user without a name is none. -/
def load {σ : Type} [Storage σ] (keys : StorageKeys) (store : σ) : Restored :=
  let files := readFiles (Storage.load store keys.tree)
  let directory := readText (Storage.load store keys.directory)
  let user := readText (Storage.load store keys.user)
  { files := files.1
    directory := directory.1
    user := user.1.filter (· ≠ "")
    notices := files.2 ++ directory.2 ++ user.2 }

end Restored

/-! ## Saving -/

namespace Context

variable {σ : Type} [Storage σ]

/-- Saves the tree, and takes the mark of change away. -/
def saveTree (context : Context σ) : Context σ :=
  { context with files := context.files.settled }.save context.keys.tree context.files.root.toJson

/-- Saves the current directory. -/
def saveDirectory (context : Context σ) : Context σ :=
  context.save context.keys.directory (Json.quote context.login.directory)

/-- Saves the current user. -/
def saveUser (context : Context σ) : Context σ :=
  context.save context.keys.user (Json.quote context.login.user)

/-- Saves the tree if it has changed. -/
def persistTree (context : Context σ) : Context σ :=
  if context.files.changed then context.saveTree else context

/-- Saves the current directory if it is no longer what it was. -/
def persistDirectory (before : Login) (context : Context σ) : Context σ :=
  if context.login.directory = before.directory then context else context.saveDirectory

/-- Saves the current user if it is no longer what it was. -/
def persistUser (before : Login) (context : Context σ) : Context σ :=
  if context.login.user = before.user then context else context.saveUser

/-- Saves what has changed since the login was `before`. -/
def persist (before : Login) (context : Context σ) : Context σ :=
  (context.persistTree.persistDirectory before).persistUser before

/-! ## What saving leaves alone -/

/-- To save the tree takes the mark of change away. Else it changes the store and the notices at
most. -/
theorem saveTree_eq (context : Context σ) : ∃ store notices,
    context.saveTree = { context with files := context.files.settled, store, notices } :=
  save_eq { context with files := context.files.settled } _ _

/-- To save the directory changes the store and the notices at most. -/
theorem saveDirectory_eq (context : Context σ) :
    ∃ store notices, context.saveDirectory = { context with store, notices } :=
  save_eq _ _ _

/-- To save the user changes the store and the notices at most. -/
theorem saveUser_eq (context : Context σ) :
    ∃ store notices, context.saveUser = { context with store, notices } :=
  save_eq _ _ _

/-- Whether the tree has to be saved or not, it has no mark of change afterwards. -/
theorem persistTree_eq (context : Context σ) : ∃ store notices,
    context.persistTree = { context with files := context.files.settled, store, notices } := by
  unfold persistTree
  split
  · exact context.saveTree_eq
  · next h =>
    have hsettled := FileSystem.settled_of_not_changed (by simpa using h)
    exact ⟨context.store, context.notices, by rw [hsettled]⟩

@[simp] theorem login_persistTree (context : Context σ) :
    context.persistTree.login = context.login := by
  obtain ⟨_, _, h⟩ := context.persistTree_eq
  rw [h]

/-- Whether the directory has to be saved or not, only the store and the notices may be others. -/
theorem persistDirectory_eq (context : Context σ) (before : Login) :
    ∃ store notices, context.persistDirectory before = { context with store, notices } :=
  exists_ite_eq context.saveDirectory_eq

@[simp] theorem login_persistDirectory (context : Context σ) (before : Login) :
    (context.persistDirectory before).login = context.login := by
  obtain ⟨_, _, h⟩ := context.persistDirectory_eq before
  rw [h]

/-- Whether the user has to be saved or not, only the store and the notices may be others. -/
theorem persistUser_eq (context : Context σ) (before : Login) :
    ∃ store notices, context.persistUser before = { context with store, notices } :=
  exists_ite_eq context.saveUser_eq

/-- Beside the store and the notices, saving what has changed touches the mark of change only. -/
theorem persist_eq (context : Context σ) (before : Login) : ∃ store notices,
    context.persist before = { context with files := context.files.settled, store, notices } := by
  obtain ⟨_, _, htree⟩ := context.persistTree_eq
  obtain ⟨_, _, hdirectory⟩ := context.persistTree.persistDirectory_eq before
  obtain ⟨store, notices, huser⟩ :=
    (context.persistTree.persistDirectory before).persistUser_eq before
  refine ⟨store, notices, ?_⟩
  rw [persist, huser, hdirectory, htree]

/-- As long as the directory and the user are the same, nothing but the tree can have to be saved.
-/
theorem persist_of_same_login (context : Context σ) {before : Login}
    (hdirectory : context.login.directory = before.directory)
    (huser : context.login.user = before.user) : context.persist before = context.persistTree := by
  simp [persist, persistDirectory, persistUser, hdirectory, huser]

/-- Where nothing has changed nothing is saved. -/
theorem persist_eq_self (context : Context σ) {before : Login}
    (hdirectory : context.login.directory = before.directory)
    (huser : context.login.user = before.user) (hfiles : context.files.changed = false) :
    context.persist before = context := by
  rw [persist_of_same_login context hdirectory huser, persistTree, if_neg (by simp [hfiles])]

end Context

end PocketShell
