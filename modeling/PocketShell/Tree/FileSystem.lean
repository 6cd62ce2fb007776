import PocketShell.Tree.Edit

/-!
# The file system

A `FileSystem` is a tree whose root is a directory and whose names are distinct, with a mark that is
set when the tree changes. Paths given to it may have any spelling; nothing is found at the end of a
way that leads through a file.
-/

namespace PocketShell

/-- A tree of files and directories. -/
structure FileSystem where
  /-- The root directory. -/
  root : Node
  /-- The tree has changed since the mark was last taken away. -/
  changed : Bool := false
  /-- The root is a directory. -/
  rooted : root.isDirectory
  /-- No directory holds a name twice. -/
  distinct : root.Distinct

/-- One row of a directory listing. -/
structure Listed where
  name : String
  isDirectory : Bool
  deriving DecidableEq, Repr

/-- A listed name as it is shown: a directory has a slash. -/
def Listed.display (row : Listed) : String :=
  if row.isDirectory then row.name ++ "/" else row.name

namespace FileSystem

/-- The tree that holds nothing. -/
def empty : FileSystem where
  root := .directory []
  rooted := rfl
  distinct := ⟨List.nodup_nil, trivial⟩

instance : Inhabited FileSystem := ⟨empty⟩

/-- The tree under a directory, names that come twice being merged; a file is no tree. -/
def ofNode? (node : Node) : Option FileSystem :=
  if h : node.isDirectory then
    some {
      root := node.tidy
      rooted := node.isDirectory_tidy ▸ h
      distinct := node.distinct_tidy }
  else none

/-- The same tree, with the mark taken away. -/
def settled (fs : FileSystem) : FileSystem :=
  { fs with changed := false }

/-- Where there is no mark of change there is none to be taken away. -/
theorem settled_of_not_changed {fs : FileSystem} (h : fs.changed = false) : fs.settled = fs := by
  rw [settled, ← h]

/-! ## Looking -/

/-- What stands at the place that a path denotes. -/
def lookup? (fs : FileSystem) (path : String) : Option Node :=
  fs.root.find? (Path.components path)

/-- A directory stands at the place. -/
def isDirectory (fs : FileSystem) (path : String) : Bool :=
  (fs.lookup? path).any Node.isDirectory

/-- The content of the file at the place. -/
def read (fs : FileSystem) (path : String) : Except Fault String :=
  match fs.lookup? path with
  | some (.file content) => .ok content
  | some (.directory _) => .error .isADirectory
  | none => .error .noSuchEntry

/-- The rows of the directory at the place, in the order of their creation. -/
def list (fs : FileSystem) (path : String) : Except Fault (List Listed) :=
  match fs.lookup? path with
  | some (.directory entries) => .ok (entries.map fun entry => ⟨entry.1, entry.2.isDirectory⟩)
  | some (.file _) => .error .notADirectory
  | none => .error .noSuchEntry

/-! ## Changing -/

/-- The tree after an edit of the place that a path denotes, or the fault that prevents it. -/
def edit (fs : FileSystem) (path : String) (edit : Edit) : Except Fault FileSystem :=
  match h : edit.applyTo fs.root path with
  | .error fault => .error fault
  | .ok none => .ok fs
  | .ok (some root) =>
    .ok {
      root
      changed := true
      rooted := Edit.isDirectory_applyTo fs.rooted h
      distinct := Edit.distinct_applyTo fs.distinct h }

/-- The fault that prevents an edit, if any, and the tree after it: the one before it if there is a
fault. -/
def attempt (fs : FileSystem) (path : String) (edit : Edit) : Option Fault × FileSystem :=
  match fs.edit path edit with
  | .error fault => (some fault, fs)
  | .ok fs => (none, fs)

/-- An edit that is made leaves everything as it is, or sets the mark. -/
theorem edit_eq_ok {fs after : FileSystem} {path : String} {edit : Edit}
    (h : fs.edit path edit = .ok after) :
    (edit.applyTo fs.root path = .ok none ∧ after = fs) ∨
      (edit.applyTo fs.root path = .ok (some after.root) ∧ after.changed = true) := by
  unfold FileSystem.edit at h
  split at h
  · cases h
  · next hresult => cases h; exact .inl ⟨hresult, rfl⟩
  · next hresult => cases h; exact .inr ⟨hresult, rfl⟩

/-- An edit is refused with the fault that stands in its way in the tree. -/
theorem edit_eq_error {fs : FileSystem} {path : String} {edit : Edit} {fault : Fault}
    (h : fs.edit path edit = .error fault) : edit.applyTo fs.root path = .error fault := by
  unfold FileSystem.edit at h
  split at h
  · next hresult => cases h; exact hresult
  · cases h
  · cases h

/-- An attempt that succeeds leaves the tree with the edit. -/
theorem attempt_of_ok {fs after : FileSystem} {path : String} {edit : Edit}
    (h : fs.edit path edit = .ok after) : fs.attempt path edit = (none, after) := by
  rw [attempt, h]

/-- An attempt that fails leaves the tree as it was. -/
theorem attempt_of_error {fs : FileSystem} {path : String} {edit : Edit} {fault : Fault}
    (h : fs.edit path edit = .error fault) : fs.attempt path edit = (some fault, fs) := by
  rw [attempt, h]

/-- A tree that is not the same after an edit has the mark. -/
theorem eq_or_changed_of_edit {fs after : FileSystem} {path : String} {edit : Edit}
    (h : fs.edit path edit = .ok after) : after = fs ∨ after.changed = true := by
  rcases edit_eq_ok h with ⟨-, hsame⟩ | ⟨-, hchanged⟩
  · exact .inl hsame
  · exact .inr hchanged

/-- An attempt leaves everything as it is, or sets the mark of change. -/
theorem attempt_eq_or_changed (fs : FileSystem) (path : String) (edit : Edit) :
    (fs.attempt path edit).2 = fs ∨ (fs.attempt path edit).2.changed = true := by
  cases h : fs.edit path edit with
  | error fault => exact .inl (by rw [attempt_of_error h])
  | ok after =>
    rw [attempt_of_ok h]
    exact eq_or_changed_of_edit h

/-- The tree after edits one after another; one that is refused changes nothing. -/
def editAll (fs : FileSystem) : List (String × Edit) → FileSystem
  | [] => fs
  | (path, edit) :: edits => (fs.attempt path edit).2.editAll edits

end FileSystem

end PocketShell
