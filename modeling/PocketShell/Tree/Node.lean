import PocketShell.Named

/-!
# Files and directories

A `Node` is a file with its content or a directory with its entries in the order of their creation.
`Node.Distinct` says that no directory below it holds a name twice; `Node.tidy` brings a node into
that form. Nodes below a node are addressed by the list of names that leads to them: `Node.find?`
reads and `Node.graft` replaces. Main statements: `Node.distinct_tidy`, `Node.tidy_eq_self`, a node
in that form stays as it is, and `Node.Distinct.graft`, replacing keeps names distinct.
-/

namespace PocketShell

/-- A file or a directory. -/
inductive Node where
  /-- A file and its content. -/
  | file (content : String)
  /-- A directory and its entries, in the order of their creation. -/
  | directory (entries : List (String × Node))

namespace Node

/-- The node is a directory. -/
def isDirectory : Node → Bool
  | file _ => false
  | directory _ => true

/-! ## Addresses -/

/-- The node at the end of a list of names; there is none if the way leads through a file. -/
def find? : List String → Node → Option Node
  | [], node => some node
  | name :: names, directory entries => (Named.get? entries name).bind (find? names)
  | _ :: _, file _ => none

/-- Puts `new` in the place of the node at the end of a list of names, if there is one. -/
def graft (new : Node) : List String → Node → Node
  | [], _ => new
  | name :: names, directory entries => directory (Named.modify entries name (graft new names))
  | _ :: _, file content => file content

/-! ## Measures -/

mutual

/-- The number of directories that lie in one another on the longest way down; a file has none. -/
def depth : Node → Nat
  | file _ => 0
  | directory entries => 1 + entriesDepth entries

/-- The greatest depth among the entries. -/
def entriesDepth : List (String × Node) → Nat
  | [] => 0
  | (_, node) :: rest => max node.depth (entriesDepth rest)

end

mutual

/-- The number of nodes, the node itself included. -/
def size : Node → Nat
  | file _ => 1
  | directory entries => 1 + entriesSize entries

/-- The number of nodes among the entries and below them. -/
def entriesSize : List (String × Node) → Nat
  | [] => 0
  | (_, node) :: rest => node.size + entriesSize rest

end

/-! ## Distinct names -/

mutual

/-- No directory holds a name twice. -/
def Distinct : Node → Prop
  | file _ => True
  | directory entries => (Named.names entries).Nodup ∧ EntriesDistinct entries

/-- No directory among the entries or below them holds a name twice. -/
def EntriesDistinct : List (String × Node) → Prop
  | [] => True
  | (_, node) :: rest => node.Distinct ∧ EntriesDistinct rest

end

mutual

/-- Leaves each name of each directory once, with the last of its nodes, at the place of the
first. -/
def tidy : Node → Node
  | file content => file content
  | directory entries => directory (Named.merge (tidyEntries entries))

/-- Tidies each entry. -/
def tidyEntries : List (String × Node) → Named Node
  | [] => []
  | (name, node) :: rest => (name, node.tidy) :: tidyEntries rest

end

/-- Below entries names are distinct exactly if they are so in each of the nodes. -/
theorem entriesDistinct_iff {entries : Named Node} :
    EntriesDistinct entries ↔ ∀ entry ∈ entries, entry.2.Distinct := by
  induction entries with
  | nil => simp [EntriesDistinct]
  | cons entry rest ih =>
    obtain ⟨name, node⟩ := entry
    simp [EntriesDistinct, ih]

mutual

/-- In a tidy tree no directory holds a name twice. -/
theorem distinct_tidy : ∀ node : Node, node.tidy.Distinct
  | file _ => trivial
  | directory entries => by
    refine ⟨Named.names_merge_nodup _, entriesDistinct_iff.mpr fun entry hentry => ?_⟩
    exact entriesDistinct_iff.mp (entriesDistinct_tidyEntries entries) _
      (Named.mem_of_mem_merge hentry)

/-- So it is below tidy entries. -/
theorem entriesDistinct_tidyEntries :
    ∀ entries : List (String × Node), EntriesDistinct (tidyEntries entries)
  | [] => trivial
  | (_, node) :: rest => ⟨distinct_tidy node, entriesDistinct_tidyEntries rest⟩

end

mutual

/-- A tree in which no directory holds a name twice is tidy already. -/
theorem tidy_eq_self : ∀ {node : Node}, node.Distinct → node.tidy = node
  | file _, _ => rfl
  | directory entries, h => by
    rw [tidy, tidyEntries_eq_self h.2, Named.merge_eq_self h.1]

/-- So are entries below which no directory does. -/
theorem tidyEntries_eq_self :
    ∀ {entries : List (String × Node)}, EntriesDistinct entries → tidyEntries entries = entries
  | [], _ => rfl
  | (_, _) :: _, h => by rw [tidyEntries, tidy_eq_self h.1, tidyEntries_eq_self h.2]

end

/-- Tidying makes no file of a directory, and no directory of a file. -/
theorem isDirectory_tidy (node : Node) : node.tidy.isDirectory = node.isDirectory := by
  cases node <;> rfl

/-- A directory in which something is replaced by a directory is one still, and so is what replaces
it. -/
theorem isDirectory_graft {new node : Node} {names : List String} (hnew : new.isDirectory)
    (hnode : node.isDirectory) : (graft new names node).isDirectory := by
  cases names with
  | nil => exact hnew
  | cons name names =>
    cases node with
    | file _ => cases hnode
    | directory entries => rfl

/-- What a directory passes on to its entries it passes on to all that is found below it. -/
theorem find?_induction (p : Node → Prop)
    (hentry : ∀ {entries : List (String × Node)}, p (directory entries) →
      ∀ entry ∈ entries, p entry.2)
    {names : List String} {node found : Node} (hnode : p node)
    (h : find? names node = some found) : p found := by
  induction names generalizing node with
  | nil => cases h; exact hnode
  | cons name names ih =>
    cases node with
    | file _ => cases h
    | directory entries =>
      obtain ⟨child, hchild, h⟩ := Option.bind_eq_some_iff.mp h
      exact ih (hentry hnode _ (Named.mem_of_get? hchild)) h

/-- What is found in a tree holds no name twice if the tree does not. -/
theorem Distinct.find? {names : List String} {node found : Node} (hnode : node.Distinct)
    (h : find? names node = some found) : found.Distinct :=
  find?_induction Distinct (fun hdistinct => entriesDistinct_iff.mp hdistinct.2) hnode h

/-- If a change of nodes keeps names distinct, so it does below entries. -/
theorem entriesDistinct_modify {entries : List (String × Node)} {name : String} {f : Node → Node}
    (hf : ∀ node : Node, node.Distinct → (f node).Distinct) (h : EntriesDistinct entries) :
    EntriesDistinct (Named.modify entries name f) := by
  induction entries with
  | nil => trivial
  | cons entry rest ih =>
    obtain ⟨other, node⟩ := entry
    rw [Named.modify]
    split
    · exact ⟨hf node h.1, h.2⟩
    · exact ⟨h.1, ih h.2⟩

/-- Replacing a node keeps names distinct. -/
theorem Distinct.graft {new node : Node} {names : List String} (hnew : new.Distinct)
    (hnode : node.Distinct) : (graft new names node).Distinct := by
  induction names generalizing node with
  | nil => exact hnew
  | cons name names ih =>
    cases node with
    | file _ => trivial
    | directory entries =>
      exact ⟨by rw [Named.names_modify]; exact hnode.1,
        entriesDistinct_modify (fun _ => ih) hnode.2⟩

/-- A child that holds no name twice can be put into a directory that does not. -/
theorem Distinct.put {entries : List (String × Node)} {name : String} {child : Node}
    (h : (directory entries).Distinct) (hchild : child.Distinct) :
    (directory (Named.put entries name child)).Distinct := by
  refine ⟨?_, entriesDistinct_iff.mpr fun entry hentry => ?_⟩
  · rw [Named.names_put]
    split
    · exact h.1
    · next hnew =>
      rw [List.nodup_append]
      refine ⟨h.1, by simp, fun other hother last hlast => ?_⟩
      rw [List.mem_singleton.mp hlast]
      rintro rfl
      exact hnew hother
  · rcases Named.mem_of_mem_put hentry with rfl | hentry
    · exact hchild
    · exact entriesDistinct_iff.mp h.2 _ hentry

/-- So can a child be taken out of it. -/
theorem Distinct.erase {entries : List (String × Node)} {name : String}
    (h : (directory entries).Distinct) : (directory (Named.erase entries name)).Distinct := by
  refine ⟨?_, entriesDistinct_iff.mpr fun entry hentry => ?_⟩
  · rw [Named.names_erase]
    exact h.1.erase _
  · exact entriesDistinct_iff.mp h.2 _ (Named.mem_of_mem_erase hentry)

end Node

end PocketShell
