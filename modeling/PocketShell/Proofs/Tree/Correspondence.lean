import PocketShell.Proofs.Tree.Addressable
import PocketShell.Proofs.Tree.PathMap

/-!
# Paths and nodes

`Node.Leads` says which lists of names lead from a node to those below it, by the entries of the
directories alone. Where every name can stand in a path for itself, these lists and the paths that
find something correspond (`FileSystem.PathsCorrespond`). Every edit keeps such names: the only name
that it may add is cut from a path. Main statement: `FileSystem.pathsCorrespond_editAll`.
-/

namespace PocketShell

namespace Node

/-! ## The ways through a tree -/

/-- The names lead from the first node to the second, each being that of an entry. -/
inductive Leads : Node → List String → Node → Prop
  | here (node : Node) : Leads node [] node
  | through {entries : Named Node} {name : String} {child found : Node} {names : List String} :
      (name, child) ∈ entries → Leads child names found →
      Leads (directory entries) (name :: names) found

/-- Names along which something is found lead to it. -/
theorem leads_of_find? {names : List String} {node found : Node}
    (h : find? names node = some found) : Leads node names found := by
  induction names generalizing node with
  | nil => cases h; exact .here _
  | cons name names ih =>
    cases node with
    | file _ => cases h
    | directory entries =>
      obtain ⟨child, hchild, h⟩ := Option.bind_eq_some_iff.mp h
      exact .through (Named.mem_of_get? hchild) (ih h)

/-- Where no directory holds a name twice, names lead to one node at most, and that one is found. -/
theorem leads_iff {names : List String} {node found : Node} (h : node.Distinct) :
    Leads node names found ↔ find? names node = some found := by
  refine ⟨fun hleads => ?_, leads_of_find?⟩
  -- As no name is there twice, an entry is the one that is found under its name.
  induction hleads with
  | here node => rfl
  | @through entries name child found names hmem _ ih =>
    have hchild : child.Distinct := entriesDistinct_iff.mp h.2 _ hmem
    rw [find?, Named.get?_of_mem h.1 hmem, Option.bind_some, ih hchild]

/-- A way to a directory goes on to each of its children. -/
theorem Leads.child {names : List String} {node child : Node} {entries : Named Node} {name : String}
    (h : Leads node names (directory entries)) (hmem : (name, child) ∈ entries) :
    Leads node (names ++ [name]) child := by
  induction names generalizing node with
  | nil =>
    cases h
    exact .through hmem (.here child)
  | cons first names ih =>
    cases h with
    | through hfirst h => exact .through hfirst (ih h)

/-! ## Names after an edit -/

/-- Entries stay addressable when one of them is modified in a way that keeps it so. -/
theorem entriesAddressable_modify {entries : Named Node} {name : String} {f : Node → Node}
    (hf : ∀ node : Node, node.Addressable → (f node).Addressable) (h : EntriesAddressable entries) :
    EntriesAddressable (Named.modify entries name f) := by
  induction entries with
  | nil => trivial
  | cons entry rest ih =>
    obtain ⟨other, node⟩ := entry
    obtain ⟨hother, hnode, hrest⟩ := h
    rw [Named.modify]
    split
    · exact ⟨hother, hf node hnode, hrest⟩
    · exact ⟨hother, hnode, ih hrest⟩

/-- Replacing a node adds no name but those of the new one. -/
theorem Addressable.graft {new node : Node} {names : List String} (hnew : new.Addressable)
    (hnode : node.Addressable) : (graft new names node).Addressable := by
  induction names generalizing node with
  | nil => exact hnew
  | cons name names ih =>
    cases node with
    | file _ => trivial
    | directory entries => exact entriesAddressable_modify (fun _ => ih) hnode

/-- A directory stays addressable when an addressable node is put under a component. -/
theorem Addressable.put {entries : Named Node} {name : String} {child : Node}
    (h : (directory entries).Addressable) (hname : Path.IsComponent name)
    (hchild : child.Addressable) : (directory (Named.put entries name child)).Addressable := by
  refine entriesAddressable_iff.mpr fun entry hentry => ?_
  rcases Named.mem_of_mem_put hentry with rfl | hentry
  · exact ⟨hname, hchild⟩
  · exact entriesAddressable_iff.mp h entry hentry

/-- A directory stays addressable when an entry is taken away. -/
theorem Addressable.erase {entries : Named Node} {name : String}
    (h : (directory entries).Addressable) : (directory (Named.erase entries name)).Addressable :=
  entriesAddressable_iff.mpr fun entry hentry =>
    entriesAddressable_iff.mp h entry (Named.mem_of_mem_erase hentry)

end Node

namespace Edit

/-- An edit of an entry leaves its directory addressable if the name is a component. -/
theorem addressable_applyAt {entries new : Named Node} {name : String} {edit : Edit}
    (hentries : (Node.directory entries).Addressable) (hname : Path.IsComponent name)
    (h : edit.applyAt entries name = .ok (some new)) : (Node.directory new).Addressable := by
  rcases applyAt_eq_some h with ⟨child, hchild, rfl⟩ | rfl
  · rcases hchild with rfl | ⟨text, rfl⟩
    · exact hentries.put hname trivial
    · exact hentries.put hname trivial
  · exact hentries.erase

/-- The name that an edit may add is cut from its path, so it can stand in a path for itself. -/
theorem addressable_applyTo {root new : Node} {path : String} {edit : Edit}
    (hroot : root.Addressable) (h : edit.applyTo root path = .ok (some new)) : new.Addressable := by
  obtain ⟨parent, name, entries, entries', hleaf, hparent, hnew, rfl⟩ := applyTo_eq_some h
  have hmem : name ∈ Path.components path := by
    rw [Path.splitLeaf?_eq_some_iff.mp hleaf]
    exact List.mem_append_right _ (List.mem_singleton_self name)
  have hname : Path.IsComponent name := Path.isComponent_of_mem_components hmem
  exact .graft (addressable_applyAt (hroot.find? hparent) hname hnew) hroot

end Edit

namespace FileSystem

variable {fs : FileSystem}

/-- An attempted edit leaves a tree addressable: the name it puts in is cut out of a path. -/
theorem addressable_attempt (h : fs.root.Addressable) (path : String) (edit : Edit) :
    (fs.attempt path edit).2.root.Addressable := by
  cases hedit : fs.edit path edit with
  | error fault => rwa [attempt_of_error hedit]
  | ok after =>
    rw [attempt_of_ok hedit]
    rcases edit_eq_ok hedit with ⟨-, rfl⟩ | ⟨hresult, -⟩
    · exact h
    · exact Edit.addressable_applyTo h hresult

/-- Edits one after another leave a tree addressable. -/
theorem addressable_editAll (h : fs.root.Addressable) (edits : List (String × Edit)) :
    (fs.editAll edits).root.Addressable := by
  induction edits generalizing fs with
  | nil => exact h
  | cons step edits ih =>
    obtain ⟨path, edit⟩ := step
    exact ih (addressable_attempt h path edit)

/-! ## The correspondence -/

/-- The ways through a tree and the paths that find something correspond. -/
structure PathsCorrespond (fs : FileSystem) : Prop where
  /-- Every node is found at the path along the names that lead to it. -/
  found {names : List String} {node : Node} : fs.root.Leads names node →
    fs.lookup? (Path.ofComponents names) = some node
  /-- The name of a child, resolved in the path of its directory, gives the path of the child. -/
  child {names : List String} {entries : Named Node} {name : String} {node : Node} :
    fs.root.Leads names (.directory entries) → (name, node) ∈ entries →
      Path.resolve (Path.ofComponents names) name = Path.ofComponents (names ++ [name]) ∧
        fs.root.Leads (names ++ [name]) node
  /-- A path that finds a node has the normal form of one way only, and that leads to the node. -/
  way {path : String} {node : Node} : fs.lookup? path = some node →
    ∃ names, fs.root.Leads names node ∧ Path.normalize path = Path.ofComponents names ∧
      ∀ others other, fs.root.Leads others other →
        Path.normalize path = Path.ofComponents others → others = names

/-- In an addressable tree the ways and the paths correspond. -/
theorem pathsCorrespond_of_addressable (h : fs.root.Addressable) : fs.PathsCorrespond where
  found hleads := (findsAll_iff.mpr h _ _ ((Node.leads_iff fs.distinct).mp hleads)).1
  child {names entries name node} hleads hmem := by
    have hchild := hleads.child hmem
    have hnames := h.isComponent ((Node.leads_iff fs.distinct).mp hchild)
    refine ⟨?_, hchild⟩
    rw [Path.resolve_eq_ofComponents_iff hnames, Path.components_resolve (hnames name (by simp)),
      Path.components_ofComponents fun other hother => hnames other (List.mem_append_left _ hother)]
  way {path node} hfound := by
    refine ⟨Path.components path, Node.leads_of_find? hfound, rfl, fun others other hleads heq => ?_⟩
    have hothers := h.isComponent ((Node.leads_iff fs.distinct).mp hleads)
    rw [← Path.components_ofComponents hothers, ← heq, Path.components_normalize]

/-- **Names stay addressable, and paths and nodes correspond.** If no directory of a tree holds a
name twice and every name can stand in a path for itself, this is so after every sequence of edits,
whatever their paths and whether they are refused or not; and in every tree of that kind the ways
through the tree and the paths that find something correspond. -/
theorem pathsCorrespond_editAll (h : fs.root.Addressable) (edits : List (String × Edit)) :
    (fs.editAll edits).root.Distinct ∧ (fs.editAll edits).root.Addressable ∧
      (fs.editAll edits).PathsCorrespond := by
  have hnames := addressable_editAll h edits
  exact ⟨(fs.editAll edits).distinct, hnames, pathsCorrespond_of_addressable hnames⟩

/-- Edits under paths with detours; the first and the last are refused. -/
theorem pathsCorrespond_editAll_of_detours :
    let edits : List (String × Edit) := [("docs/./a b", .create .directory),
      ("/../docs", .create .directory), ("docs//~", .write "text" .append), ("/docs/..", .remove)]
    empty.root.Addressable ∧ (empty.editAll edits).root.Distinct ∧
      (empty.editAll edits).root.Addressable ∧ (empty.editAll edits).PathsCorrespond := by
  intro edits
  have hempty : empty.root.Addressable := trivial
  exact ⟨hempty, pathsCorrespond_editAll hempty edits⟩

end FileSystem

end PocketShell
