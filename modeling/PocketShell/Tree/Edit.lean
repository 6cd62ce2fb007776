import PocketShell.Path
import PocketShell.Tree.Node

/-!
# Edits

An `Edit` says what is to happen to the place that a path denotes. `Edit.applyTo` makes the whole
change in a tree, or answers the `Fault` that prevents it. Paths may have any spelling. Main
statements: `Edit.distinct_applyTo` and `Edit.isDirectory_applyTo`, an edited tree keeps its names
distinct and its root a directory.
-/

namespace PocketShell

/-- Why an operation on the tree is refused. -/
inductive Fault where
  /-- The place is empty. -/
  | noSuchEntry
  /-- A file stands where a directory is needed. -/
  | notADirectory
  /-- A directory stands where a file is needed. -/
  | isADirectory
  /-- The name is taken. -/
  | alreadyExists
  /-- The directory that is to hold the place is missing. -/
  | noSuchParent
  deriving DecidableEq, Repr

/-- The reason phrase of a fault. -/
def Fault.message : Fault → String
  | noSuchEntry => "No such file or directory"
  | notADirectory => "Not a directory"
  | isADirectory => "Is a directory"
  | alreadyExists => "File exists"
  | noSuchParent => "No such file or directory"

/-- What a new entry is. -/
inductive EntryKind where
  | file
  | directory
  deriving DecidableEq, Repr

/-- The node with which a new entry begins. -/
def EntryKind.blank : EntryKind → Node
  | file => .file ""
  | directory => .directory []

/-- What becomes of the content that a file already has. -/
inductive WriteMode where
  | overwrite
  | append
  deriving DecidableEq, Repr

/-- The content of a file that held `old` after `new` is written to it. -/
def WriteMode.combine (old new : String) : WriteMode → String
  | overwrite => new
  | append => old ++ new

/-- What is to happen to the place that a path denotes. -/
inductive Edit where
  /-- Make a file or a directory; a file may be there already and then stays as it is. -/
  | create (kind : EntryKind)
  /-- Remove a file. -/
  | remove
  /-- Write to a file, which is made if it is missing. -/
  | write (content : String) (mode : WriteMode)

namespace Edit

/-- What the root makes of an edit, `none` if nothing is wrong and nothing happens: it is there
already, and it is a directory. -/
def rootFault? : Edit → Option Fault
  | create .file => none
  | create .directory => some .alreadyExists
  | remove => some .isADirectory
  | write .. => some .isADirectory

/-- The fault of an edit when the directory that should hold its place is missing. -/
def orphanFault : Edit → Fault
  | remove => .noSuchEntry
  | create _ => .noSuchParent
  | write .. => .noSuchParent

/-- The entries of a directory after an edit of the place called `name` in it, `none` if they stay
as they are. -/
def applyAt (entries : Named Node) (name : String) : Edit → Except Fault (Option (Named Node))
  | create kind =>
    match entries.get? name, kind with
    | none, _ => .ok (some (entries.put name kind.blank))
    | some _, .file => .ok none
    | some _, .directory => .error .alreadyExists
  | remove =>
    match entries.get? name with
    | none => .error .noSuchEntry
    | some (.directory _) => .error .isADirectory
    | some (.file _) => .ok (some (entries.erase name))
  | write content mode =>
    match entries.get? name with
    | none => .ok (some (entries.put name (.file content)))
    | some (.directory _) => .error .isADirectory
    | some (.file old) => .ok (some (entries.put name (.file (mode.combine old content))))

/-- An edit that changes the entries of a directory takes one away, or puts one there that has
nothing below it. -/
theorem applyAt_eq_some {entries new : Named Node} {name : String} {edit : Edit}
    (h : edit.applyAt entries name = .ok (some new)) :
    (∃ child, (child = .directory [] ∨ ∃ text, child = .file text) ∧
        new = entries.put name child) ∨
      new = entries.erase name := by
  cases edit with
  | create kind =>
    have hblank : kind.blank = .directory [] ∨ ∃ text, kind.blank = .file text := by
      cases kind with
      | file => exact .inr ⟨"", rfl⟩
      | directory => exact .inl rfl
    simp only [applyAt] at h
    split at h
    · cases h
      exact .inl ⟨_, hblank, rfl⟩
    · cases h
    · cases h
  | remove =>
    simp only [applyAt] at h
    split at h
    · cases h
    · cases h
    · cases h
      exact .inr rfl
  | write content mode =>
    simp only [applyAt] at h
    split at h
    · cases h
      exact .inl ⟨_, .inr ⟨_, rfl⟩, rfl⟩
    · cases h
    · cases h
      exact .inl ⟨_, .inr ⟨_, rfl⟩, rfl⟩

/-- In a directory where no name comes twice, none does after an edit. -/
theorem distinct_applyAt {entries new : Named Node} {name : String} {edit : Edit}
    (hentries : (Node.directory entries).Distinct)
    (h : edit.applyAt entries name = .ok (some new)) : (Node.directory new).Distinct := by
  rcases applyAt_eq_some h with ⟨child, hchild, rfl⟩ | rfl
  · rcases hchild with rfl | ⟨text, rfl⟩
    · exact hentries.put ⟨List.nodup_nil, trivial⟩
    · exact hentries.put trivial
  · exact hentries.erase

/-- The tree after an edit of the place that a path denotes, `none` if it stays as it is. -/
def applyTo (root : Node) (path : String) (edit : Edit) : Except Fault (Option Node) :=
  match Path.splitLeaf? path with
  | none =>
    match edit.rootFault? with
    | none => .ok none
    | some fault => .error fault
  | some (parent, name) =>
    match root.find? parent with
    | none => .error edit.orphanFault
    | some (.file _) => .error .notADirectory
    | some (.directory entries) =>
      match edit.applyAt entries name with
      | .error fault => .error fault
      | .ok none => .ok none
      | .ok (some new) => .ok (some (Node.graft (.directory new) parent root))

/-- An edit that changes a tree changes the entries of one directory, the one that holds its place.
-/
theorem applyTo_eq_some {root new : Node} {path : String} {edit : Edit}
    (h : edit.applyTo root path = .ok (some new)) :
    ∃ parent name entries entries', Path.splitLeaf? path = some (parent, name) ∧
      root.find? parent = some (.directory entries) ∧
      edit.applyAt entries name = .ok (some entries') ∧
      new = Node.graft (.directory entries') parent root := by
  rw [applyTo] at h
  split at h
  · split at h <;> cases h
  · next parent name hleaf =>
    split at h
    · cases h
    · cases h
    · next entries hparent =>
      split at h
      · cases h
      · cases h
      · next entries' hnew =>
        cases h
        exact ⟨parent, name, entries, entries', hleaf, hparent, hnew, rfl⟩

/-- Where no directory holds a name twice, none does after an edit. -/
theorem distinct_applyTo {root new : Node} {path : String} {edit : Edit} (hroot : root.Distinct)
    (h : edit.applyTo root path = .ok (some new)) : new.Distinct := by
  obtain ⟨parent, name, entries, entries', -, hparent, hnew, rfl⟩ := applyTo_eq_some h
  exact Node.Distinct.graft (distinct_applyAt (hroot.find? hparent) hnew) hroot

/-- The root stays a directory. -/
theorem isDirectory_applyTo {root new : Node} {path : String} {edit : Edit}
    (hroot : root.isDirectory) (h : edit.applyTo root path = .ok (some new)) :
    new.isDirectory := by
  obtain ⟨parent, name, entries, entries', -, -, -, rfl⟩ := applyTo_eq_some h
  exact Node.isDirectory_graft rfl hroot

end Edit

end PocketShell

