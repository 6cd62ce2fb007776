import PocketShell.Proofs.Tree.Writing

/-!
# Which fault prevents which edit

An edit is refused for what stands at its place, or at the place of the directory that is to hold
it. `Edit.FailsWith` has a line for each fault that an edit can meet. Main statement:
`FileSystem.attempt_classified`, an edit meets a fault exactly where the table says so, is made
everywhere else, and changes nothing when it is refused.
-/

namespace PocketShell

/-- The path denotes the root, which has no name and no directory that holds it. -/
def Path.IsRoot (path : String) : Prop :=
  components path = []

/-! ## The table -/

namespace FileSystem

variable (fs : FileSystem) (path : String)

/-- Nothing stands at the place of the directory that is to hold the place. -/
def Orphaned : Prop :=
  fs.lookup? (Path.parent path) = none

/-- A file stands at the place of the directory that is to hold the place. -/
def UnderFile : Prop :=
  ∃ content, fs.lookup? (Path.parent path) = some (.file content)

/-- The place has the name in a directory with the entries. -/
def Lies (entries : Named Node) (name : String) : Prop :=
  fs.lookup? (Path.parent path) = some (.directory entries) ∧
    (Path.components path).getLast? = some name

/-- The directory that is to hold the place has its name. -/
def Taken : Prop :=
  ∃ entries name, fs.Lies path entries name ∧ name ∈ Named.names entries

/-- The directory that is to hold the place does not have its name. -/
def Free : Prop :=
  ∃ entries name, fs.Lies path entries name ∧ name ∉ Named.names entries

end FileSystem

/-- The edit of a place is refused with a fault. -/
def Edit.FailsWith (fs : FileSystem) (path : String) : Edit → Fault → Prop
  | create .directory, .alreadyExists => Path.IsRoot path ∨ fs.Taken path
  | create _, .noSuchParent | write .., .noSuchParent => ¬ Path.IsRoot path ∧ fs.Orphaned path
  | remove, .noSuchEntry => fs.Orphaned path ∨ fs.Free path
  | write .., .isADirectory | remove, .isADirectory => Path.IsRoot path ∨ fs.isDirectory path
  | _, .notADirectory => fs.UnderFile path
  | _, _ => False

namespace Edit

/-! ## An edit in its directory -/

section
variable {entries : Named Node} {name : String} {fault : Fault}

/-- Within its directory an entry cannot be made only if it is to be a directory and its name is
taken. -/
theorem applyAt_create_eq_error_iff {kind : EntryKind} :
    (create kind).applyAt entries name = .error fault ↔
      kind = .directory ∧ fault = .alreadyExists ∧ name ∈ Named.names entries := by
  cases hname : entries.get? name with
  | none =>
    have hfree := Named.get?_eq_none_iff.mp hname
    simp [applyAt, hname, hfree]
  | some node =>
    have htaken : name ∈ Named.names entries := by
      by_contra hfree
      simp [Named.get?_eq_none_iff.mpr hfree] at hname
    cases kind <;> simp [applyAt, hname, htaken, eq_comm]

/-- Within its directory an entry cannot be removed if it is missing or is a directory. -/
theorem applyAt_remove_eq_error_iff :
    remove.applyAt entries name = .error fault ↔
      fault = .noSuchEntry ∧ name ∉ Named.names entries ∨
        fault = .isADirectory ∧ (entries.get? name).any Node.isDirectory := by
  rw [← Named.get?_eq_none_iff]
  cases hname : entries.get? name with
  | none => simp [applyAt, hname, eq_comm]
  | some node => cases node <;> simp [applyAt, hname, Node.isDirectory, eq_comm]

/-- Within its directory an entry cannot be written to if it is a directory. -/
theorem applyAt_write_eq_error_iff {content : String} {mode : WriteMode} :
    (write content mode).applyAt entries name = .error fault ↔
      fault = .isADirectory ∧ (entries.get? name).any Node.isDirectory := by
  cases hname : entries.get? name with
  | none => simp [applyAt, hname]
  | some node => cases node <;> simp [applyAt, hname, Node.isDirectory, eq_comm]

end

end Edit

namespace FileSystem

variable {fs : FileSystem} {path : String}

/-! ## The place and its directory -/

/-- What has a name in a directory is not the root. -/
theorem not_isRoot_of_lies {entries : Named Node} {name : String} (h : fs.Lies path entries name) :
    ¬ Path.IsRoot path := by
  intro hroot
  rw [Lies, hroot] at h
  simp at h

/-- The root is there to hold itself. -/
theorem exists_lookup?_parent_of_isRoot (fs : FileSystem) {path : String} (h : Path.IsRoot path) :
    ∃ entries, fs.lookup? (Path.parent path) = some (.directory entries) := by
  rw [lookup?, Path.components_parent, h]
  have hrooted := fs.rooted
  cases hnode : fs.root with
  | file _ => simp [hnode, Node.isDirectory] at hrooted
  | directory entries => exact ⟨entries, rfl⟩

/-- The root is never orphaned, as it is its own parent. -/
theorem not_isRoot_and_orphaned_iff : ¬ Path.IsRoot path ∧ fs.Orphaned path ↔ fs.Orphaned path := by
  refine and_iff_right_of_imp fun horphaned hroot => ?_
  obtain ⟨entries, hentries⟩ := fs.exists_lookup?_parent_of_isRoot hroot
  rw [Orphaned, hentries] at horphaned
  cases horphaned

/-- A directory stands at a path if one stands under its name in the directory that holds it. -/
theorem isDirectory_iff_of_lies {entries : Named Node} {name : String}
    (h : fs.Lies path entries name) :
    fs.isDirectory path ↔ (entries.get? name).any Node.isDirectory := by
  obtain ⟨hparent, hlast⟩ := h
  obtain ⟨parent, hsplit⟩ := List.getLast?_eq_some_iff.mp hlast
  rw [lookup?, Path.components_parent, hsplit, List.dropLast_concat] at hparent
  rw [isDirectory, lookup?, hsplit, Node.find?_child hparent]

/-- What stands at a place other than the root stands in a directory. -/
theorem exists_lies_of_isDirectory (h : fs.isDirectory path) (hroot : ¬ Path.IsRoot path) :
    ∃ entries name, fs.Lies path entries name := by
  obtain ⟨parent, name, hsplit⟩ : ∃ parent name, Path.components path = parent ++ [name] :=
    ⟨_, _, (List.dropLast_concat_getLast hroot).symm⟩
  cases hnode : fs.lookup? path with
  | none => simp [isDirectory, hnode] at h
  | some node =>
    rw [lookup?, hsplit] at hnode
    obtain ⟨entries, hentries⟩ := Node.exists_entries_of_find?_child hnode
    refine ⟨entries, name, ?_, by simp [hsplit]⟩
    rw [lookup?, Path.components_parent, hsplit, List.dropLast_concat, hentries]

/-- The root aside, a directory stands at a path if a directory holds it that has a directory under
its name. -/
theorem isRoot_or_isDirectory_iff : Path.IsRoot path ∨ fs.isDirectory path ↔
    Path.IsRoot path ∨
      ∃ entries name, fs.Lies path entries name ∧ (entries.get? name).any Node.isDirectory := by
  constructor
  · rintro (hroot | hdirectory)
    · exact .inl hroot
    · by_cases hroot : Path.IsRoot path
      · exact .inl hroot
      · obtain ⟨entries, name, hlies⟩ := exists_lies_of_isDirectory hdirectory hroot
        exact .inr ⟨entries, name, hlies, (isDirectory_iff_of_lies hlies).mp hdirectory⟩
  · rintro (hroot | ⟨entries, name, hlies, hbelow⟩)
    · exact .inl hroot
    · exact .inr ((isDirectory_iff_of_lies hlies).mpr hbelow)

/-! ## Where an edit is refused -/

/-- An edit is refused at the root, for what stands where a directory is to hold the place, or in
that directory. -/
theorem applyTo_eq_error_iff {edit : Edit} {fault : Fault} :
    edit.applyTo fs.root path = .error fault ↔
      Path.IsRoot path ∧ edit.rootFault? = some fault ∨
        ¬ Path.IsRoot path ∧ fs.Orphaned path ∧ edit.orphanFault = fault ∨
        fs.UnderFile path ∧ fault = .notADirectory ∨
        ∃ entries name, fs.Lies path entries name ∧ edit.applyAt entries name = .error fault := by
  unfold Edit.applyTo
  cases hleaf : Path.splitLeaf? path with
  | none =>
    have hroot : Path.IsRoot path := Path.splitLeaf?_eq_none_iff.mp hleaf
    have hlies (entries : Named Node) (name : String) : ¬ fs.Lies path entries name :=
      fun h => not_isRoot_of_lies h hroot
    obtain ⟨below, hbelow⟩ := fs.exists_lookup?_parent_of_isRoot hroot
    cases hfault : edit.rootFault? <;> simp [hroot, hlies, UnderFile, hbelow]
  | some leaf =>
    obtain ⟨parent, name⟩ := leaf
    have hsplit := Path.splitLeaf?_eq_some_iff.mp hleaf
    have hroot : ¬ Path.IsRoot path := by simp [Path.IsRoot, hsplit]
    have hparent : fs.lookup? (Path.parent path) = fs.root.find? parent := by
      rw [lookup?, Path.components_parent, hsplit, List.dropLast_concat]
    cases hholder : fs.root.find? parent with
    | none => simp [hroot, Orphaned, UnderFile, Lies, hparent, hholder]
    | some holder =>
      cases holder with
      | file content => simp [hroot, Orphaned, UnderFile, Lies, hparent, hholder, eq_comm]
      | directory entries =>
        have hlies (entries' : Named Node) (name' : String) :
            fs.Lies path entries' name' ↔ entries = entries' ∧ name = name' := by
          simp [Lies, hparent, hholder, hsplit]
        cases happly : edit.applyAt entries name with
        | error other =>
          simp [hroot, Orphaned, UnderFile, hparent, hholder, hlies, and_assoc, happly]
        | ok new? =>
          cases new? <;>
            simp [hroot, Orphaned, UnderFile, hparent, hholder, hlies, and_assoc, happly]

/-- An attempt fails as the edit does on the tree. -/
theorem attempt_eq_some_iff {edit : Edit} {fault : Fault} :
    (fs.attempt path edit).1 = some fault ↔ edit.applyTo fs.root path = .error fault := by
  cases hedit : fs.edit path edit with
  | error other =>
    rw [attempt_of_error hedit, edit_eq_error hedit]
    simp
  | ok after =>
    rw [attempt_of_ok hedit]
    rcases edit_eq_ok hedit with ⟨hresult, -⟩ | ⟨hresult, -⟩ <;> simp [hresult]

/-- An edit is refused with a fault exactly where the table has it. -/
theorem failsWith_iff {edit : Edit} {fault : Fault} :
    edit.FailsWith fs path fault ↔ (fs.attempt path edit).1 = some fault := by
  rw [attempt_eq_some_iff, applyTo_eq_error_iff]
  cases edit with
  | create kind =>
    simp only [Edit.applyAt_create_eq_error_iff]
    cases kind <;> cases fault <;> simp [Edit.FailsWith, Edit.rootFault?, Edit.orphanFault, Taken]
  | remove =>
    simp only [Edit.applyAt_remove_eq_error_iff]
    cases fault <;>
      simp [Edit.FailsWith, Edit.rootFault?, Edit.orphanFault, Free, isRoot_or_isDirectory_iff,
        not_isRoot_and_orphaned_iff]
  | write content mode =>
    simp only [Edit.applyAt_write_eq_error_iff]
    cases fault <;>
      simp [Edit.FailsWith, Edit.rootFault?, Edit.orphanFault, isRoot_or_isDirectory_iff]

/-- An edit fails with a fault exactly where the table says so. -/
theorem edit_eq_error_iff {edit : Edit} {fault : Fault} :
    fs.edit path edit = .error fault ↔ edit.FailsWith fs path fault := by
  rw [failsWith_iff]
  cases hedit : fs.edit path edit with
  | error other => simp [attempt_of_error hedit]
  | ok after => simp [attempt_of_ok hedit]

/-- An attempt succeeds exactly where the table has no fault. -/
theorem attempt_eq_none_iff {edit : Edit} :
    (fs.attempt path edit).1 = none ↔ ∀ fault, ¬ edit.FailsWith fs path fault := by
  simp only [failsWith_iff]
  cases (fs.attempt path edit).1 <;> simp

/-- A failed attempt leaves the tree as it was. -/
theorem attempt_snd_of_ne_none {edit : Edit} (h : (fs.attempt path edit).1 ≠ none) :
    (fs.attempt path edit).2 = fs := by
  cases hedit : fs.edit path edit with
  | error fault => rw [attempt_of_error hedit]
  | ok after => simp [attempt_of_ok hedit] at h

/-- An edit meets a fault where the table has it, is made where the table has none, and changes
nothing when it is refused. -/
theorem attempt_classified (fs : FileSystem) (path : String) (edit : Edit) :
    (∀ fault, (fs.attempt path edit).1 = some fault ↔ edit.FailsWith fs path fault) ∧
      ((fs.attempt path edit).1 = none ↔ ∀ fault, ¬ edit.FailsWith fs path fault) ∧
      ((fs.attempt path edit).1 ≠ none → (fs.attempt path edit).2 = fs) :=
  ⟨fun _ => failsWith_iff.symm, attempt_eq_none_iff, attempt_snd_of_ne_none⟩

end FileSystem

end PocketShell
