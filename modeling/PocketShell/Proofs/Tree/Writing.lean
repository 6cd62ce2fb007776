import PocketShell.Command.Run
import PocketShell.Proofs.Path.Normal
import PocketShell.Proofs.Tree.PathMap

/-!
# Places that can be written

`PathMap.Writable` says when a file can be written at a place. Then the write is made
(`FileSystem.exists_edit_write`), the place can be written ever after (`Edit.Effect.writable`), and
of several contents written one after another only the last counts (`Edit.Effect.overwrite_overwrite`). The
editor opens at such places only (`Command.writable_of_contentToEdit`).
-/

namespace PocketShell

/-- A directory is there to hold the place, and the place is no directory itself. -/
def PathMap.Writable (map : PathMap) (place : List String) : Prop :=
  ∃ parent name, place = parent ++ [name] ∧ map.kind? parent = some .directory ∧
    map.kind? place ≠ some .directory

/-! ## What a write leaves -/

namespace Edit.Effect

variable {place : List String} {before middle after : PathMap}

/-- After overwriting the file holds what was written. -/
theorem kind?_of_overwrite {content : String}
    (h : (Edit.write content .overwrite).Effect place before after) :
    after.kind? place = some (.file content) := by
  cases h with
  | write => exact Function.update_self _ _ _
  | overwrite => exact Function.update_self _ _ _

/-- A place that was overwritten can be written to again. -/
theorem writable {content : String} (h : (Edit.write content .overwrite).Effect place before after)
    (hplace : before.Writable place) : after.Writable place := by
  obtain ⟨parent, name, hsplit, hparent, -⟩ := hplace
  refine ⟨parent, name, hsplit, h.directory_stays hparent, ?_⟩
  rw [h.kind?_of_overwrite]
  simp

/-- What is a directory after a write was one before. -/
theorem directory_of_write {content : String} {mode : WriteMode} {other : List String}
    (h : (Edit.write content mode).Effect place before after)
    (hother : after.kind? other = some .directory) : before.kind? other = some .directory := by
  cases h with
  | @write _ parent name _ _ hparent hmissing =>
    by_cases hplace : other = parent ++ [name]
    · simp [hplace, PathMap.add] at hother
    · rwa [PathMap.kind?_add_of_ne _ _ hplace] at hother
  | overwrite hfile | append hfile =>
    by_cases hplace : other = place
    · simp [hplace, PathMap.set] at hother
    · rwa [PathMap.kind?_set_of_ne _ _ hplace] at hother

/-- A content that is overwritten leaves no trace. -/
theorem overwrite_overwrite {first second : String}
    (hfirst : (Edit.write first .overwrite).Effect place before middle)
    (hsecond : (Edit.write second .overwrite).Effect place middle after) :
    (Edit.write second .overwrite).Effect place before after := by
  have hmiddle := hfirst.kind?_of_overwrite
  cases hfirst with
  | @write _ parent name _ _ hparent hmissing =>
    -- The file is new after the first write, so the second one finds it there.
    generalize hplace : parent ++ [name] = place at hsecond
    cases hsecond with
    | write _ hgone => simp [← hplace, PathMap.add] at hgone
    | overwrite =>
      subst hplace
      have hadd : (before.add parent name (.file first)).set (parent ++ [name]) (.file second) =
          before.add parent name (.file second) := by
        simp [PathMap.add, PathMap.set, Function.update_idem]
      exact hadd ▸ .write hparent hmissing
  | overwrite hfile =>
    cases hsecond with
    | write _ hgone => simp [hgone] at hmiddle
    | overwrite =>
      have hset : (before.set place (.file first)).set place (.file second) =
          before.set place (.file second) := by
        simp [PathMap.set, Function.update_idem]
      exact hset ▸ .overwrite hfile

end Edit.Effect

/-! ## Writing in a tree -/

namespace Node

/-- Where a directory is seen, the tree has its entries. -/
theorem exists_entries_of_kind? {root : Node} {place : List String}
    (h : root.pathMap.kind? place = some .directory) :
    ∃ entries, root.find? place = some (directory entries) := by
  obtain ⟨node, hnode, hkind⟩ := Option.map_eq_some_iff.mp h
  cases node with
  | file _ => cases hkind
  | directory entries => exact ⟨entries, hnode⟩

/-- What stands below a place stands in a directory. -/
theorem exists_entries_of_find?_child {root child : Node} {parent : List String} {name : String}
    (h : root.find? (parent ++ [name]) = some child) :
    ∃ entries, root.find? parent = some (directory entries) := by
  rw [find?_append] at h
  obtain ⟨node, hnode, hchild⟩ := Option.bind_eq_some_iff.mp h
  cases node with
  | file _ => cases hchild
  | directory entries => exact ⟨entries, hnode⟩

end Node

/-- A place that can be written to is written to without a fault. -/
theorem Edit.exists_applyTo_write {root : Node} {path : String}
    (h : root.pathMap.Writable (Path.components path)) (content : String) (mode : WriteMode) :
    ∃ new, (write content mode).applyTo root path = .ok (some new) := by
  obtain ⟨parent, name, hsplit, hparent, hplace⟩ := h
  obtain ⟨entries, hentries⟩ := Node.exists_entries_of_kind? hparent
  have hchild : root.find? (parent ++ [name]) = Named.get? entries name :=
    Node.find?_child hentries name
  unfold applyTo
  rw [Path.splitLeaf?_eq_some_iff.mpr hsplit]
  simp only [hentries]
  cases hname : Named.get? entries name with
  | none => exact ⟨_, by simp [applyAt, hname]; rfl⟩
  | some node =>
    cases node with
    | file old => exact ⟨_, by simp [applyAt, hname]; rfl⟩
    | directory below =>
      rw [hsplit, Node.pathMap] at hplace
      simp [hchild, hname, Node.kind] at hplace

/-- Where a file can be written, a write is made, and it sets the mark. -/
theorem FileSystem.exists_edit_write {fs : FileSystem} {path : String}
    (h : fs.root.pathMap.Writable (Path.components path)) (content : String) (mode : WriteMode) :
    ∃ after, fs.edit path (.write content mode) = .ok after ∧ after.changed = true := by
  obtain ⟨new, hnew⟩ := Edit.exists_applyTo_write h content mode
  cases hedit : fs.edit path (.write content mode) with
  | error fault =>
    rw [edit_eq_error hedit] at hnew
    cases hnew
  | ok after =>
    rcases edit_eq_ok hedit with ⟨hsame, -⟩ | ⟨-, hchanged⟩
    · rw [hsame] at hnew
      cases hnew
    · exact ⟨after, rfl, hchanged⟩

/-! ## Opening -/

/-- The editor opens where a file can be written. -/
theorem Command.writable_of_contentToEdit {files : FileSystem} {path content : String}
    (h : contentToEdit files path = .ok content) :
    files.root.pathMap.Writable (Path.components path) := by
  have hroot : files.root.pathMap.kind? [] = some .directory := by
    have hrooted := files.rooted
    cases hnode : files.root with
    | file _ => simp [hnode, Node.isDirectory] at hrooted
    | directory _ => rfl
  have hplace : files.root.pathMap.kind? (Path.components path) ≠ some .directory := by
    intro hdirectory
    obtain ⟨entries, hentries⟩ := Node.exists_entries_of_kind? hdirectory
    simp [contentToEdit, FileSystem.lookup?, hentries] at h
  -- The root is a directory, so the place has a name and something is to hold it.
  obtain ⟨parent, name, hsplit⟩ : ∃ parent name, Path.components path = parent ++ [name] := by
    rcases List.eq_nil_or_concat (Path.components path) with hnil | ⟨parent, name, hconcat⟩
    · exact absurd (hnil ▸ hroot) hplace
    · exact ⟨parent, name, by rw [hconcat, List.concat_eq_append]⟩
  suffices hparent : ∃ entries, files.root.find? parent = some (.directory entries) by
    obtain ⟨entries, hentries⟩ := hparent
    exact ⟨parent, name, hsplit, by simp [Node.pathMap, hentries, Node.kind], hplace⟩
  unfold contentToEdit at h
  split at h
  · cases h
  · next hfile =>
    rw [FileSystem.lookup?, hsplit] at hfile
    exact Node.exists_entries_of_find?_child hfile
  · split at h
    · next entries hentries =>
      rw [FileSystem.lookup?, Path.components_parent, hsplit, List.dropLast_concat] at hentries
      exact ⟨entries, hentries⟩
    · cases h
    · cases h

end PocketShell
