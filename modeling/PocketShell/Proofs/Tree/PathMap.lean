import Mathlib.Logic.Function.Basic
import PocketShell.Tree.FileSystem

/-!
# A tree as a map from places

`PathMap` is a tree seen from outside: what stands at each place, a place being a list of names from
the root, and which names a directory shows, in order. `Edit.Effect` says in these terms what an
edit is to do. Main statements: `FileSystem.edit_effect`, an edit that is made has its effect and no
other, and `FileSystem.edit_effect_of_editAll`, this holds of every edit of a sequence, for every
spelling of its path.
-/

namespace PocketShell

/-- What can stand at a place. -/
inductive Kind where
  | file (content : String)
  | directory
  deriving DecidableEq, Repr

/-- What stands at each place, and the names that the directory there shows, in order; where no
directory stands there are no names. -/
@[ext]
structure PathMap where
  kind? : List String → Option Kind
  names : List String → List String

namespace PathMap

/-- The map with another node at a place. -/
def set (map : PathMap) (place : List String) (kind : Kind) : PathMap :=
  { map with kind? := Function.update map.kind? place (some kind) }

/-- The map with a node under a new name, which comes last in its directory. -/
def add (map : PathMap) (parent : List String) (name : String) (kind : Kind) : PathMap where
  kind? := Function.update map.kind? (parent ++ [name]) (some kind)
  names := Function.update map.names parent (map.names parent ++ [name])

/-- The map without the node under a name; the other names of its directory keep their order. -/
def drop (map : PathMap) (parent : List String) (name : String) : PathMap where
  kind? := Function.update map.kind? (parent ++ [name]) none
  names := Function.update map.names parent ((map.names parent).erase name)

section
variable (map : PathMap) {parent other : List String} {name : String}

/-- Another node at a place leaves the other places. -/
theorem kind?_set_of_ne {place : List String} (kind : Kind) (h : other ≠ place) :
    (map.set place kind).kind? other = map.kind? other :=
  Function.update_of_ne h _ _

/-- A new node leaves the other places. -/
theorem kind?_add_of_ne (kind : Kind) (h : other ≠ parent ++ [name]) :
    (map.add parent name kind).kind? other = map.kind? other :=
  Function.update_of_ne h _ _

/-- A node that is taken away leaves the other places. -/
theorem kind?_drop_of_ne (h : other ≠ parent ++ [name]) :
    (map.drop parent name).kind? other = map.kind? other :=
  Function.update_of_ne h _ _

end

end PathMap

/-- What a new entry is, seen from outside. -/
def EntryKind.kind : EntryKind → Kind
  | file => .file ""
  | directory => .directory

/-- What an edit of a place makes of a map. -/
inductive Edit.Effect : Edit → List String → PathMap → PathMap → Prop
  /-- A new entry is blank. -/
  | create {kind : EntryKind} {map : PathMap} {parent : List String} {name : String} :
      map.kind? parent = some .directory → map.kind? (parent ++ [name]) = none →
      Effect (.create kind) (parent ++ [name]) map (map.add parent name kind.kind)
  /-- A file is not made where something stands. -/
  | keep {map : PathMap} {place : List String} :
      (map.kind? place).isSome → Effect (.create .file) place map map
  /-- A file can be removed. -/
  | remove {map : PathMap} {parent : List String} {name content : String} :
      map.kind? (parent ++ [name]) = some (.file content) →
      Effect .remove (parent ++ [name]) map (map.drop parent name)
  /-- A file that is missing counts as empty when it is written to, so that in either mode it has
  what is written. -/
  | write {map : PathMap} {parent : List String} {name content : String} {mode : WriteMode} :
      map.kind? parent = some .directory → map.kind? (parent ++ [name]) = none →
      Effect (.write content mode) (parent ++ [name]) map (map.add parent name (.file content))
  /-- A file that is overwritten keeps its place in the listing, and nothing else. -/
  | overwrite {map : PathMap} {place : List String} {old content : String} :
      map.kind? place = some (.file old) →
      Effect (.write content .overwrite) place map (map.set place (.file content))
  /-- What is appended comes after all that the file has. -/
  | append {map : PathMap} {place : List String} {old content : String} :
      map.kind? place = some (.file old) →
      Effect (.write content .append) place map (map.set place (.file (old ++ content)))

/-- What was a directory is one still. -/
theorem Edit.Effect.directory_stays {edit : Edit} {place : List String} {before after : PathMap}
    (h : edit.Effect place before after) {other : List String}
    (hother : before.kind? other = some .directory) : after.kind? other = some .directory := by
  cases h with
  | keep => exact hother
  | create _ hmissing | write _ hmissing =>
    refine (PathMap.kind?_add_of_ne _ _ ?_).trans hother
    rintro rfl
    simp [hother] at hmissing
  | remove hfile =>
    refine (PathMap.kind?_drop_of_ne _ ?_).trans hother
    rintro rfl
    simp [hother] at hfile
  | overwrite hfile | append hfile =>
    refine (PathMap.kind?_set_of_ne _ _ ?_).trans hother
    rintro rfl
    simp [hother] at hfile

namespace Node

/-- What a node is, seen from outside. -/
def kind : Node → Kind
  | file content => .file content
  | directory _ => .directory

/-- The names in a directory; a file has none. -/
def entryNames : Node → List String
  | file _ => []
  | directory entries => Named.names entries

/-- A node as a map from the places below it. -/
def pathMap (node : Node) : PathMap where
  kind? place := (find? place node).map kind
  names place := ((find? place node).map entryNames).getD []

/-! ## Places below a node -/

/-- Some names after others are followed from where these lead. -/
theorem find?_append (parent rest : List String) (node : Node) :
    find? (parent ++ rest) node = (find? parent node).bind (find? rest) := by
  induction parent generalizing node with
  | nil => rfl
  | cons name parent ih =>
    cases node with
    | file _ => rfl
    | directory entries =>
      simp only [List.cons_append, find?, Option.bind_assoc]
      exact congrArg _ (funext ih)

/-- Below a node without entries there is nothing. -/
theorem find?_cons_of_entryNames {node : Node} (h : node.entryNames = []) (name : String)
    (rest : List String) : find? (name :: rest) node = none := by
  cases node with
  | file _ => rfl
  | directory entries =>
    have hnames : name ∉ Named.names entries := by
      rw [show Named.names entries = [] from h]
      exact List.not_mem_nil
    rw [find?, Named.get?_eq_none_iff.mpr hnames]
    rfl

/-- The last name is looked up in the directory the others lead to. -/
theorem find?_child {parent : List String} {node : Node} {entries : Named Node}
    (h : find? parent node = some (directory entries)) (name : String) :
    find? (parent ++ [name]) node = Named.get? entries name := by
  rw [find?_append, h]
  change (Named.get? entries name).bind (find? []) = _
  exact Option.bind_fun_some _

/-- What a tree is at a place after the entries of one of its directories were replaced, if they
were replaced under one name only and nothing lies below what stands or stood under that name. Of a
directory on the way only the names count. -/
theorem map_find?_graft {β : Type} (f : Node → β)
    (hf : ∀ entries entries', Named.names entries = Named.names entries' →
      f (directory entries) = f (directory entries'))
    {entries entries' : Named Node} {name : String}
    (hothers : ∀ other, other ≠ name → Named.get? entries' other = Named.get? entries other)
    (hold : ∀ node, Named.get? entries name = some node → node.entryNames = [])
    (hnew : ∀ node, Named.get? entries' name = some node → node.entryNames = [])
    {parent : List String} {root : Node} (hparent : find? parent root = some (directory entries))
    (place : List String) :
    (find? place (graft (directory entries') parent root)).map f =
      if place = parent ++ [name] then (Named.get? entries' name).map f
      else if place = parent then some (f (directory entries'))
      else (find? place root).map f := by
  -- The place goes the same way as far as the directory, or leaves it at some name.
  induction parent generalizing root place with
  | nil =>
    cases hparent
    cases place with
    | nil => rfl
    | cons first rest =>
      by_cases hname : first = name
      · subst hname
        cases rest with
        | nil => simp [graft, find?]
        | cons second rest =>
          -- Both sides are empty: nothing lies below what stands or stood under the name.
          have below : ∀ es : Named Node,
              (∀ node, Named.get? es first = some node → node.entryNames = []) →
              find? (first :: second :: rest) (directory es) = none := by
            intro es hes
            rw [find?, Option.bind_eq_none_iff]
            exact fun node hnode => find?_cons_of_entryNames (hes node hnode) second rest
          simp [graft, below entries' hnew, below entries hold]
      · simp [graft, find?, hname, hothers first hname]
  | cons first parent ih =>
    cases root with
    | file _ => cases hparent
    | directory siblings =>
      obtain ⟨child, hchild, hparent⟩ := Option.bind_eq_some_iff.mp hparent
      cases place with
      | nil => exact congrArg some (hf _ _ (Named.names_modify _ _ _))
      | cons other rest =>
        rw [graft, find?, Named.get?_modify]
        by_cases hother : first = other
        · subst hother
          rw [if_pos rfl, hchild]
          simpa [find?, hchild] using ih hparent rest
        · simp [find?, hother, Ne.symm hother]

/-- The map of a tree after the entries of one of its directories were replaced, if they were
replaced under one name only and nothing lies below what stands or stood under that name. -/
theorem pathMap_graft {entries entries' : Named Node} (name : String)
    (hothers : ∀ other, other ≠ name → Named.get? entries' other = Named.get? entries other)
    (hold : ∀ node, Named.get? entries name = some node → node.entryNames = [])
    (hnew : ∀ node, Named.get? entries' name = some node → node.entryNames = [])
    {parent : List String} {root : Node} (hparent : find? parent root = some (directory entries)) :
    (graft (directory entries') parent root).pathMap =
      { kind? := Function.update root.pathMap.kind? (parent ++ [name])
          ((Named.get? entries' name).map kind)
        names := Function.update root.pathMap.names parent (Named.names entries') } := by
  have hchild := find?_child hparent name
  refine PathMap.ext (funext fun place => ?_) (funext fun place => ?_)
  · have hmap := map_find?_graft kind (fun _ _ _ => rfl) hothers hold hnew hparent place
    simp only [pathMap, hmap, Function.update_apply]
    refine ite_congr rfl (fun _ => rfl) fun _ => ?_
    split
    · next hplace => rw [hplace, hparent]; rfl
    · rfl
  · have hmap := map_find?_graft entryNames (fun _ _ h => h) hothers hold hnew hparent place
    simp only [pathMap, hmap, Function.update_apply]
    split
    · -- What stands or stood under the name shows no names.
      next hplace =>
      have hne : place ≠ parent := fun h => by simp [hplace] at h
      rw [if_neg hne, hplace, hchild]
      cases hnode : Named.get? entries' name <;> cases hnode' : Named.get? entries name <;>
        simp_all
    · split <;> rfl

section
variable {entries : Named Node} {parent : List String} {root : Node} {name : String}

/-- A childless node put under a new name is one more place, and its name comes last in the
directory. -/
theorem pathMap_graft_add (hparent : find? parent root = some (directory entries))
    (hname : Named.get? entries name = none) {child : Node} (hchild : child.entryNames = []) :
    (graft (directory (Named.put entries name child)) parent root).pathMap =
      root.pathMap.add parent name child.kind := by
  have hnames : root.pathMap.names parent = Named.names entries := by
    simp [pathMap, hparent, entryNames]
  rw [pathMap_graft name _ _ _ hparent]
  · rw [Named.get?_put, if_pos rfl, Named.names_put, if_neg (Named.get?_eq_none_iff.mp hname),
      PathMap.add, hnames]
    rfl
  · intro other hother
    rw [Named.get?_put, if_neg (Ne.symm hother)]
  · simp [hname]
  · rw [Named.get?_put, if_pos rfl]
    rintro node ⟨⟩
    exact hchild

/-- Another content of a file changes what stands at its place, and nothing else: its name keeps its
position. -/
theorem pathMap_graft_set {old : String}
    (hparent : find? parent root = some (directory entries))
    (hname : Named.get? entries name = some (file old)) (content : String) :
    (graft (directory (Named.put entries name (file content))) parent root).pathMap =
      root.pathMap.set (parent ++ [name]) (.file content) := by
  have hnames : root.pathMap.names parent = Named.names entries := by
    simp [pathMap, hparent, entryNames]
  have hmem : name ∈ Named.names entries := by
    by_contra h
    simp [Named.get?_eq_none_iff.mpr h] at hname
  rw [pathMap_graft name _ _ _ hparent]
  · rw [Named.get?_put, if_pos rfl, Named.names_put, if_pos hmem, ← hnames,
      Function.update_eq_self]
    rfl
  · intro other hother
    rw [Named.get?_put, if_neg (Ne.symm hother)]
  · rw [hname]
    rintro node ⟨⟩
    rfl
  · rw [Named.get?_put, if_pos rfl]
    rintro node ⟨⟩
    rfl

/-- A file that is taken away is a place less. No place lies below it, and the names beside it keep
their order. -/
theorem pathMap_graft_drop {content : String}
    (hparent : find? parent root = some (directory entries))
    (hentries : (Named.names entries).Nodup)
    (hname : Named.get? entries name = some (file content)) :
    (graft (directory (Named.erase entries name)) parent root).pathMap =
      root.pathMap.drop parent name := by
  have hnames : root.pathMap.names parent = Named.names entries := by
    simp [pathMap, hparent, entryNames]
  rw [pathMap_graft name _ _ _ hparent]
  · rw [Named.get?_erase hentries, if_pos rfl, Named.names_erase, PathMap.drop, hnames]
    rfl
  · intro other hother
    rw [Named.get?_erase hentries, if_neg (Ne.symm hother)]
  · rw [hname]
    rintro node ⟨⟩
    rfl
  · simp [Named.get?_erase hentries]

end

end Node

/-! ## Edits -/

namespace Edit

/-- An edit of an entry has its effect at the place of the entry. -/
theorem effect_applyAt {root : Node} {parent : List String} {entries : Named Node} {name : String}
    {edit : Edit} {result : Option (Named Node)} (hroot : root.Distinct)
    (hparent : Node.find? parent root = some (.directory entries))
    (h : edit.applyAt entries name = .ok result) :
    edit.Effect (parent ++ [name]) root.pathMap
      ((result.map fun new => Node.graft (.directory new) parent root).getD root).pathMap := by
  have hdir : root.pathMap.kind? parent = some .directory := by
    simp [Node.pathMap, hparent, Node.kind]
  have hkind : root.pathMap.kind? (parent ++ [name]) = (entries.get? name).map Node.kind := by
    rw [← Node.find?_child hparent name]
    rfl
  cases edit with
  | create kind =>
    cases hname : entries.get? name with
    | none =>
      simp only [applyAt, hname] at h
      cases h
      have hblank : kind.blank.kind = kind.kind := by cases kind <;> rfl
      have hempty : kind.blank.entryNames = [] := by cases kind <;> rfl
      have heffect := Node.pathMap_graft_add hparent hname hempty
      rw [hblank] at heffect
      exact heffect ▸ .create hdir (by rw [hkind, hname]; rfl)
    | some node =>
      cases kind with
      | directory => simp [applyAt, hname] at h
      | file =>
        simp only [applyAt, hname] at h
        cases h
        exact .keep (by simp [hkind, hname])
  | remove =>
    cases hname : entries.get? name with
    | none => simp [applyAt, hname] at h
    | some node =>
      cases node with
      | directory below => simp [applyAt, hname] at h
      | file content =>
        simp only [applyAt, hname] at h
        cases h
        have hnodup : (Named.names entries).Nodup := (hroot.find? hparent).1
        have hfile : root.pathMap.kind? (parent ++ [name]) = some (.file content) := by
          rw [hkind, hname]; rfl
        exact Node.pathMap_graft_drop hparent hnodup hname ▸ .remove hfile
  | write content mode =>
    cases hname : entries.get? name with
    | none =>
      simp only [applyAt, hname] at h
      cases h
      have hempty : (Node.file content).entryNames = [] := rfl
      have heffect := Node.pathMap_graft_add hparent hname hempty
      exact heffect ▸ .write hdir (by rw [hkind, hname]; rfl)
    | some node =>
      cases node with
      | directory below => simp [applyAt, hname] at h
      | file old =>
        simp only [applyAt, hname] at h
        cases h
        have hfile : root.pathMap.kind? (parent ++ [name]) = some (.file old) := by
          rw [hkind, hname]; rfl
        have heffect := Node.pathMap_graft_set hparent hname
        cases mode with
        | overwrite => exact heffect content ▸ .overwrite hfile
        | append => exact heffect (old ++ content) ▸ .append hfile

/-- An edit of a path has its effect at the components of the path. -/
theorem effect_applyTo {root : Node} {path : String} {edit : Edit} {result : Option Node}
    (hroot : root.Distinct) (h : edit.applyTo root path = .ok result) :
    edit.Effect (Path.components path) root.pathMap (result.getD root).pathMap := by
  unfold applyTo at h
  split at h
  · next hleaf =>
    rw [Path.splitLeaf?_eq_none_iff.mp hleaf]
    -- The root is a place of its own: it can only be made as a file, which leaves it alone.
    cases edit with
    | create kind => cases kind with
      | file => cases h; exact .keep rfl
      | directory => cases h
    | remove => cases h
    | write => cases h
  · next parent name hleaf =>
    rw [Path.splitLeaf?_eq_some_iff.mp hleaf]
    split at h
    · cases h
    · cases h
    · next entries hparent =>
      split at h
      · cases h
      · next hnew => cases h; exact effect_applyAt hroot hparent hnew
      · next entries' hnew => cases h; exact effect_applyAt hroot hparent hnew

/-- To make a file where something stands changes nothing. -/
theorem applyTo_create_file {root : Node} {path : String}
    (h : (root.find? (Path.components path)).isSome) :
    (create .file).applyTo root path = .ok none := by
  unfold applyTo
  split
  · rfl
  · next parent name hleaf =>
    rw [Path.splitLeaf?_eq_some_iff.mp hleaf, Node.find?_append] at h
    obtain ⟨node, hnode⟩ := Option.isSome_iff_exists.mp h
    obtain ⟨directory, hparent, hchild⟩ := Option.bind_eq_some_iff.mp hnode
    rw [hparent]
    cases directory with
    | file _ => cases hchild
    | directory entries =>
      have hname : Named.get? entries name = some node := by
        rwa [← Node.find?_child hparent name, Node.find?_append, hparent]
      simp [applyAt, hname]

end Edit

namespace FileSystem

/-- An edit that is made has its effect on the place that its path denotes, and no other. -/
theorem edit_effect {fs after : FileSystem} {path : String} {edit : Edit}
    (h : fs.edit path edit = .ok after) :
    edit.Effect (Path.components path) fs.root.pathMap after.root.pathMap := by
  rcases edit_eq_ok h with ⟨hresult, rfl⟩ | ⟨hresult, -⟩
  · exact Edit.effect_applyTo after.distinct hresult
  · exact Edit.effect_applyTo fs.distinct hresult

/-- **A tree is a map from places.** In every sequence of edits, each one that is made has its
effect on the place that its path denotes, in the map of the tree that the edits before it left, and
no other effect. A file that is there already is not made again, and the mark is set whenever the
tree is another. -/
theorem edit_effect_of_editAll (fs : FileSystem) (earlier : List (String × Edit)) {path : String}
    {edit : Edit} {after : FileSystem} (h : (fs.editAll earlier).edit path edit = .ok after) :
    edit.Effect (Path.components path) (fs.editAll earlier).root.pathMap after.root.pathMap ∧
      (edit = .create .file → ((fs.editAll earlier).lookup? path).isSome →
        after = fs.editAll earlier) ∧
      (after.root ≠ (fs.editAll earlier).root → after.changed = true) := by
  refine ⟨edit_effect h, ?_, ?_⟩
  · rintro rfl hthere
    rcases edit_eq_ok h with ⟨-, hsame⟩ | ⟨hresult, -⟩
    · exact hsame
    · rw [Edit.applyTo_create_file hthere] at hresult
      cases hresult
  · intro hne
    rcases edit_eq_ok h with ⟨-, rfl⟩ | ⟨-, hchanged⟩
    · exact absurd rfl hne
    · exact hchanged

/-- Something is added to a file that is not empty, under a path with detours. -/
theorem edit_effect_of_append :
    let earlier : List (String × Edit) :=
      [("/docs", .create .directory), ("/docs/list", .write "bread, " .overwrite)]
    ∃ after, (empty.editAll earlier).edit "docs/../docs//./list" (.write "milk" .append) =
        .ok after ∧
      (Edit.write "milk" .append).Effect ["docs", "list"] (empty.editAll earlier).root.pathMap
        after.root.pathMap ∧
      after.root.pathMap.kind? ["docs", "list"] = some (.file "bread, milk") := by
  intro earlier
  have hplace : Path.components "docs/../docs//./list" = ["docs", "list"] := by decide +kernel
  obtain ⟨after, hafter, hcontent⟩ : ∃ after, (empty.editAll earlier).edit "docs/../docs//./list"
      (.write "milk" .append) = .ok after ∧
      after.root.pathMap.kind? ["docs", "list"] = some (.file "bread, milk") := ⟨_, rfl, rfl⟩
  exact ⟨after, hafter, hplace ▸ (edit_effect_of_editAll empty earlier hafter).1, hcontent⟩

end FileSystem

end PocketShell
