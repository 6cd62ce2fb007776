import Mathlib.Data.List.Nodup
import PocketShell.Command.Run
import PocketShell.Proofs.Tree.Addressable
import PocketShell.Proofs.Tree.PathMap
import PocketShell.Proofs.Tree.ReadBack
import PocketShell.Storage.Memory

/-!
# What is drawn of a tree

The drawing of a directory follows the path of each child from the root again. Where every name can
stand in a path for itself, the path of a child leads to the child, so that the drawing has an end
and is the outline of the directory (`FileSystem.drawBelow_eq`). The outline has a row for each
descendant: `Node.descendants` lists them, and `Descendant.row` says what is in the row. Main
statement: `Command.run_tree`.
-/

namespace PocketShell

/-! ## Descendants -/

namespace Node

/-- Something that lies below a node. -/
structure Descendant where
  /-- The directories on the way to it, each with its name and whether it is the last child of its
  own directory. -/
  above : List (String × Bool)
  name : String
  /-- It is the last child of its directory. -/
  last : Bool
  isDirectory : Bool

namespace Descendant

/-- The names on the way to it, its own being the last. -/
def names (descendant : Descendant) : List String :=
  descendant.above.map (·.1) ++ [descendant.name]

/-- The way to it, and whether it leads to a directory. -/
def found (descendant : Descendant) : List String × Bool :=
  (descendant.names, descendant.isDirectory)

/-- Its row in a drawing. For each directory on the way there are four columns, with a bar in the
first if others follow that directory; a corner joins the last child to its directory, and a tee the
others; a directory has a slash after its name. -/
def row (descendant : Descendant) : String :=
  String.join (descendant.above.map fun directory => if directory.2 then "    " else "│   ") ++
    (if descendant.last then "└── " else "├── ") ++ descendant.name ++
      (if descendant.isDirectory then "/" else "")

/-- A descendant of a child is a descendant. -/
def under (name : String) (last : Bool) (descendant : Descendant) : Descendant :=
  { descendant with above := (name, last) :: descendant.above }

@[simp] theorem names_under (name : String) (last : Bool) (descendant : Descendant) :
    (descendant.under name last).names = name :: descendant.names := rfl

@[simp] theorem found_under (name : String) (last : Bool) (descendant : Descendant) :
    (descendant.under name last).found = (name :: descendant.names, descendant.isDirectory) := rfl

/-- Of a child the row is as it stands in a listing, after its connector. -/
theorem row_child (name : String) (last isDirectory : Bool) :
    Descendant.row ⟨[], name, last, isDirectory⟩ =
      connector last ++ (Listed.mk name isDirectory).display := by
  cases isDirectory <;> simp [row, connector, Listed.display, String.append_assoc]

/-- Below a directory every row has a margin for it. -/
theorem row_under (name : String) (last : Bool) (descendant : Descendant) :
    (descendant.under name last).row = margin last ++ descendant.row := by
  simp only [row, under, margin, List.map_cons, String.join_cons, String.append_assoc]
  rfl

/-- What lies below a node has a name. -/
theorem names_ne_nil (descendant : Descendant) : descendant.names ≠ [] := by
  simp [names]

end Descendant

mutual

/-- What lies below a node: each child before its own descendants, and these before the next
child. -/
def descendants : Node → List Descendant
  | file _ => []
  | directory entries => entriesDescendants entries

/-- Some entries, the last of which ends their directory, and what lies below them. -/
def entriesDescendants : List (String × Node) → List Descendant
  | [] => []
  | (name, node) :: rest =>
    ⟨[], name, rest.isEmpty, node.isDirectory⟩ ::
      (node.descendants.map (.under name rest.isEmpty) ++ entriesDescendants rest)

end

/-! ### Their rows -/

mutual

/-- The outline has a row for each descendant, in their order. -/
theorem outline_eq (indent : String) :
    ∀ node : Node, node.outline indent = node.descendants.map (indent ++ ·.row)
  | file _ => rfl
  | directory entries => outlineEntries_eq indent entries

/-- The outline of entries has a row for each of them and for each descendant of them, in their
order. -/
theorem outlineEntries_eq (indent : String) : ∀ entries : List (String × Node),
    outlineEntries indent entries = (entriesDescendants entries).map (indent ++ ·.row)
  | [] => rfl
  | (name, node) :: rest => by
    have hnode := outline_eq (indent ++ margin rest.isEmpty) node
    have hrest := outlineEntries_eq indent rest
    simp [outlineEntries, entriesDescendants, hnode, hrest, Descendant.row_child,
      Descendant.row_under, String.append_assoc]

end

/-! ### Each of them once -/

/-- The way to what is among entries or below them begins with the name of an entry. -/
theorem mem_names_of_mem_entriesDescendants {entries : Named Node} {descendant : Descendant}
    {name : String} {below : List String} (h : descendant ∈ entriesDescendants entries)
    (hnames : descendant.names = name :: below) : name ∈ Named.names entries := by
  induction entries with
  | nil => cases h
  | cons entry rest ih =>
    obtain ⟨first, node⟩ := entry
    rcases List.mem_cons.mp h with rfl | h
    · cases hnames
      exact .head _
    · rcases List.mem_append.mp h with h | h
      · obtain ⟨lower, -, rfl⟩ := List.mem_map.mp h
        cases hnames
        exact .head _
      · exact .tail _ (ih h)

mutual

/-- No two descendants have the same way to them. -/
theorem nodup_descendants : ∀ {node : Node}, node.Distinct →
    (node.descendants.map Descendant.names).Nodup
  | file _, _ => List.nodup_nil
  | directory _, h => nodup_entriesDescendants h.1 h.2

/-- No two entries or descendants of entries have the same way to them: ways through different
entries differ in their first name. -/
theorem nodup_entriesDescendants : ∀ {entries : List (String × Node)},
    (Named.names entries).Nodup → EntriesDistinct entries →
    ((entriesDescendants entries).map Descendant.names).Nodup
  | [], _, _ => List.nodup_nil
  | (name, node) :: rest, hnames, hdistinct => by
    obtain ⟨hname, hnames⟩ := List.nodup_cons.mp hnames
    have hlower : (node.descendants.map fun lower => name :: lower.names).Nodup := by
      have hcons := (nodup_descendants hdistinct.1).map (List.cons_injective (a := name))
      rwa [List.map_map] at hcons
    have hrest := nodup_entriesDescendants hnames hdistinct.2
    -- Only what lies below the first entry is on a way that begins with its name.
    have hother (below : List String) :
        name :: below ∉ (entriesDescendants rest).map Descendant.names := by
      intro hmem
      obtain ⟨other, hlater, hsame⟩ := List.mem_map.mp hmem
      exact hname (mem_names_of_mem_entriesDescendants hlater hsame)
    simp only [entriesDescendants, List.map_cons, List.map_append, List.map_map,
      Function.comp_def, Descendant.names_under]
    refine List.nodup_cons.mpr ⟨fun hmem => ?_, List.nodup_append.mpr ⟨hlower, hrest, ?_⟩⟩
    · rcases List.mem_append.mp hmem with hmem | hmem
      · obtain ⟨lower, -, hsame⟩ := List.mem_map.mp hmem
        exact lower.names_ne_nil (List.cons.inj hsame).2
      · exact hother [] hmem
    · rintro _ hmem _ hlater rfl
      obtain ⟨lower, -, rfl⟩ := List.mem_map.mp hmem
      exact hother _ hlater

end

/-- A way to be found among entries goes to the first one, below it, or among the others. -/
theorem mem_entriesDescendants_cons {name first : String} {node : Node}
    {rest : List (String × Node)} {below : List String} {isDirectory : Bool} :
    (first :: below, isDirectory) ∈
        (entriesDescendants ((name, node) :: rest)).map Descendant.found ↔
      name = first ∧ (below = [] ∧ node.isDirectory = isDirectory ∨
          (below, isDirectory) ∈ node.descendants.map Descendant.found) ∨
        (first :: below, isDirectory) ∈
          (entriesDescendants rest).map Descendant.found := by
  have hfirst : Descendant.found ⟨[], name, rest.isEmpty, node.isDirectory⟩ =
      ([name], node.isDirectory) := rfl
  simp only [entriesDescendants, List.map_cons, List.map_append, List.map_map, Function.comp_def,
    Descendant.found_under, hfirst, List.mem_cons, List.mem_append, Prod.mk.injEq, List.cons.injEq]
  simp only [List.mem_map, Descendant.found, Prod.mk.injEq, List.cons.injEq]
  grind

mutual

/-- A node lists all that is found below it, and nothing else. -/
theorem mem_descendants_iff (names : List String) (isDirectory : Bool) :
    ∀ {node : Node}, node.Distinct →
      ((names, isDirectory) ∈ node.descendants.map Descendant.found ↔
        names ≠ [] ∧ (find? names node).map Node.isDirectory = some isDirectory)
  | file _, _ => by cases names <;> simp [descendants, find?]
  | directory _, h => mem_entriesDescendants_iff names isDirectory h.1 h.2

/-- What lies below a directory is what can be found there along names, and is a directory in the
drawing if it is one in the tree. -/
theorem mem_entriesDescendants_iff (names : List String) (isDirectory : Bool) :
    ∀ {entries : List (String × Node)}, (Named.names entries).Nodup → EntriesDistinct entries →
      ((names, isDirectory) ∈ (entriesDescendants entries).map Descendant.found ↔
        names ≠ [] ∧ (find? names (directory entries)).map Node.isDirectory = some isDirectory)
  | [], _, _ => by cases names <;> simp [entriesDescendants, find?]
  | (name, node) :: rest, hnames, hdistinct => by
    obtain ⟨hname, hnames⟩ := List.nodup_cons.mp hnames
    have hrest := mem_entriesDescendants_iff names isDirectory hnames hdistinct.2
    cases names with
    | nil => simp [Descendant.found, Descendant.names_ne_nil]
    | cons first below =>
      have hnode := mem_descendants_iff below isDirectory hdistinct.1
      rw [mem_entriesDescendants_cons, hnode, find?, Named.get?_cons]
      by_cases hsame : name = first
      · subst hsame
        have hmissing : Named.get? rest name = none := Named.get?_eq_none_iff.mpr hname
        rw [hrest, find?, hmissing, if_pos rfl]
        cases below <;> simp [find?]
      · rw [hrest, find?, if_neg hsame]
        simp [hsame]

end

/-! ## How deep a drawing goes -/

/-- A tree is at least as deep as any tree within it. -/
theorem depth_le_of_find? {names : List String} {node below : Node}
    (h : find? names node = some below) : below.depth ≤ node.depth := by
  refine find?_induction (·.depth ≤ node.depth) (fun {entries} hdepth => ?_) (Nat.le_refl _) h
  rw [depth] at hdepth
  exact entriesDepth_le_iff.mp (by omega)

mutual

/-- A tree is at most as deep as it has nodes. -/
theorem depth_le_size : ∀ node : Node, node.depth ≤ node.size
  | file _ => Nat.zero_le _
  | directory entries => Nat.add_le_add_left (entriesDepth_le_entriesSize entries) 1

/-- Entries are at most as deep as there are nodes in them. -/
theorem entriesDepth_le_entriesSize :
    ∀ entries : List (String × Node), entriesDepth entries ≤ entriesSize entries
  | [] => Nat.le_refl _
  | (_, node) :: rest => by
    have hnode := depth_le_size node
    have hrest := entriesDepth_le_entriesSize rest
    simp only [entriesDepth, entriesSize]
    omega

end

end Node

/-! ## The drawing -/

namespace FileSystem

variable {fs : FileSystem} {path : String}

/-- At a directory there are entries. -/
theorem exists_entries_of_isDirectory (h : fs.isDirectory path) :
    ∃ entries, fs.lookup? path = some (.directory entries) := by
  rw [isDirectory] at h
  cases hnode : fs.lookup? path with
  | none => simp [hnode] at h
  | some node =>
    cases node with
    | file _ => simp [hnode, Node.isDirectory] at h
    | directory entries => exact ⟨entries, rfl⟩

/-- The path of a child leads to the child. -/
theorem lookup?_resolve {entries : Named Node} {name : String} {node : Node}
    (h : fs.lookup? path = some (.directory entries)) (hname : Path.IsComponent name)
    (hnode : (name, node) ∈ entries) : fs.lookup? (Path.resolve path name) = some node := by
  have hdistinct : (Node.directory entries).Distinct := fs.distinct.find? h
  rw [lookup?, Path.components_resolve hname, Node.find?_child h,
    Named.get?_of_mem hdistinct.1 hnode]

/-- The rows of entries are drawn as they are outlined if that is so of the directories among
them. -/
theorem drawRows_eq {below : String → String → Option (List String)} (indent : String)
    {entries : Named Node} (hbelow : ∀ entry ∈ entries, entry.2.isDirectory →
      ∀ indent, below entry.1 indent = some (entry.2.outline indent)) :
    drawRows indent below (entries.map fun entry => ⟨entry.1, entry.2.isDirectory⟩) =
      some (Node.outlineEntries indent entries) := by
  induction entries with
  | nil => rfl
  | cons entry rest ih =>
    obtain ⟨name, node⟩ := entry
    have hrest := ih fun entry hentry => hbelow entry (.tail _ hentry)
    have hnode := hbelow (name, node) (.head _)
    simp only [List.map_cons, drawRows, hrest, List.isEmpty_map, Node.outlineEntries]
    cases node with
    | file _ => rfl
    | directory lower => simp [Node.isDirectory, hnode rfl]

/-- **Drawing follows the outline**: a bound is enough that is no less than the depth. -/
theorem drawBelow_eq (hnames : fs.root.Addressable) {bound : Nat} {entries : Named Node}
    (h : fs.lookup? path = some (.directory entries))
    (hbound : (Node.directory entries).depth ≤ bound) (indent : String) :
    fs.drawBelow bound path indent = some ((Node.directory entries).outline indent) := by
  -- The bound goes down with the depth, while the path is always followed from the root.
  induction bound generalizing path entries indent with
  | zero => simp [Node.depth] at hbound
  | succ bound ih =>
    rw [drawBelow, list, h]
    refine drawRows_eq indent fun entry hentry hdirectory below => ?_
    obtain ⟨name, node⟩ := entry
    obtain ⟨hname, -⟩ := Node.entriesAddressable_iff.mp (hnames.find? h) _ hentry
    have hchild := lookup?_resolve h hname hentry
    have hdepth := Node.entriesDepth_le_iff.mp (Nat.le_refl _) _ hentry
    cases node with
    | file _ => cases hdirectory
    | directory lower =>
      simp only [Node.depth] at hbound hdepth
      exact ih hchild (by simp only [Node.depth]; omega) below

/-- A directory is drawn as its name with a slash and the outline below it. The steps that the
drawing takes are enough, as the tree is not deeper than it has nodes. -/
theorem drawing?_eq (hnames : fs.root.Addressable) {entries : Named Node}
    (h : fs.lookup? path = some (.directory entries)) :
    fs.drawing? path = some ((if path = "/" then "/" else path ++ "/") ::
      (Node.directory entries).outline "") := by
  have hbound : (Node.directory entries).depth ≤ fs.root.size + 1 :=
    calc (Node.directory entries).depth
      _ ≤ fs.root.depth := Node.depth_le_of_find? h
      _ ≤ fs.root.size := Node.depth_le_size _
      _ ≤ fs.root.size + 1 := Nat.le_succ _
  rw [drawing?, drawBelow_eq hnames h hbound, Option.map_some]

end FileSystem

/-- **`tree` outlines the current directory.** If every name can stand in a path for itself and the
current path is a directory, then following the paths of its children comes to an end, no deeper
down than the directory is deep, and what is shown is the path with a slash and the outline of the
directory. The outline has a row for each descendant, in preorder; no descendant is listed twice,
and those that are listed are those that can be found. -/
theorem Command.run_tree {σ : Type} [Storage σ] (now : Calendar.Moment) (context : Context σ)
    (hnames : context.files.root.Addressable)
    (hcurrent : context.files.isDirectory context.login.directory) :
    let path := context.login.directory
    ∃ node, context.files.lookup? path = some node ∧
      (∀ bound ≥ node.depth, context.files.drawBelow bound path "" = some (node.outline "")) ∧
      run now context .tree =
        (.ok (.text ("\n".intercalate
          ((if path = "/" then "/" else path ++ "/") :: node.outline ""))), context) ∧
      node.outline "" = node.descendants.map Node.Descendant.row ∧
      (node.descendants.map Node.Descendant.names).Nodup ∧
      ∀ names isDirectory,
        (∃ descendant ∈ node.descendants,
            descendant.names = names ∧ descendant.isDirectory = isDirectory) ↔
          names ≠ [] ∧ (Node.find? names node).map Node.isDirectory = some isDirectory := by
  intro path
  obtain ⟨entries, hentries⟩ := FileSystem.exists_entries_of_isDirectory hcurrent
  have hdistinct : (Node.directory entries).Distinct := context.files.distinct.find? hentries
  refine ⟨.directory entries, hentries, ?_, ?_, ?_, ?_, fun names directory => ?_⟩
  · exact fun bound hbound => FileSystem.drawBelow_eq hnames hentries hbound ""
  · simp only [path, run, draw, FileSystem.drawing?_eq hnames hentries]
  · simpa using Node.outline_eq "" (.directory entries)
  · exact Node.nodup_descendants hdistinct
  · rw [← Node.mem_descendants_iff names directory hdistinct]
    simp [Node.Descendant.found]

/-- A bar stands beside the rows below a directory that others follow, and blanks beside those below
the last one. -/
theorem Command.run_tree_of_bar :
    let context : Context MemoryStore :=
      { files :=
          { root := .directory [("src", .directory [("main", .file "")]),
              ("notes", .directory [("todo", .file "")])]
            rooted := rfl
            distinct := by simp [Node.Distinct, Node.EntriesDistinct, Named.names] }
        login := .start "user" "/" "/"
        store := ⟨∅⟩
        keys := .ofStem "" }
    run ⟨0, 0⟩ context .tree =
      (.ok (.text "/\n├── src/\n│   └── main\n└── notes/\n    └── todo"), context) := by
  intro context
  have hnames : context.files.root.Addressable := by
    simp [context, Node.Addressable, Node.EntriesAddressable]
    decide
  have hplace : context.files.lookup? context.login.directory = some context.files.root := by
    have hroot : Path.components context.login.directory = [] := by decide +kernel
    rw [FileSystem.lookup?, hroot, Node.find?]
  have hcurrent : context.files.isDirectory context.login.directory := by
    rw [FileSystem.isDirectory, hplace]
    rfl
  obtain ⟨node, hnode, -, hrun, -⟩ := run_tree ⟨0, 0⟩ context hnames hcurrent
  obtain rfl : context.files.root = node := Option.some.inj (hplace.symm.trans hnode)
  rw [hrun]
  refine Prod.ext (congrArg (fun shown => Except.ok (Outcome.text shown)) ?_) rfl
  decide +kernel

end PocketShell
