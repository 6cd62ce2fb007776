import PocketShell.Proofs.Path.Normal
import PocketShell.Tree.FileSystem

/-!
# Trees in which every node can be addressed

A path is text, and is cut into names again when something is looked up. So a node is found at the
path along the names that lead to it only if each of them can stand in a path for itself.
`Node.Addressable` says this of all names in a tree, and `FileSystem.FindsAll` that every node is
found. Main statement: `FileSystem.findsAll_iff`, one holds when the other does.
-/

namespace PocketShell

namespace Node

mutual

/-- Every name in every directory can stand in a path for itself. -/
def Addressable : Node → Prop
  | file _ => True
  | directory entries => EntriesAddressable entries

/-- Every name among the entries and below them can stand in a path for itself. -/
def EntriesAddressable : List (String × Node) → Prop
  | [] => True
  | (name, node) :: rest => Path.IsComponent name ∧ node.Addressable ∧ EntriesAddressable rest

end

/-- Entries are addressable if each has a component as its name and an addressable node. -/
theorem entriesAddressable_iff {entries : Named Node} :
    EntriesAddressable entries ↔
      ∀ entry ∈ entries, Path.IsComponent entry.1 ∧ entry.2.Addressable := by
  induction entries with
  | nil => simp [EntriesAddressable]
  | cons entry rest ih =>
    obtain ⟨name, node⟩ := entry
    simp [EntriesAddressable, ih, and_assoc]

/-- All names on a way through an addressable tree are components. -/
theorem Addressable.isComponent {names : List String} {node found : Node} (h : node.Addressable)
    (hfound : find? names node = some found) : ∀ name ∈ names, Path.IsComponent name := by
  induction names generalizing node with
  | nil => simp
  | cons first names ih =>
    cases node with
    | file _ => cases hfound
    | directory entries =>
      obtain ⟨child, hchild, hfound⟩ := Option.bind_eq_some_iff.mp hfound
      obtain ⟨hname, hbelow⟩ := entriesAddressable_iff.mp h _ (Named.mem_of_get? hchild)
      exact List.forall_mem_cons.mpr ⟨hname, ih hbelow hfound⟩

/-- What is found in an addressable tree is addressable. -/
theorem Addressable.find? {names : List String} {node below : Node} (h : node.Addressable)
    (hbelow : find? names node = some below) : below.Addressable :=
  find?_induction Addressable
    (fun hentries entry hentry => (entriesAddressable_iff.mp hentries entry hentry).2) h hbelow

/-! Where no directory holds a name twice, every name is on the way to a node. -/

mutual

/-- A tree is addressable if the names on every way through it are components. Every entry is on a
way, as no directory has a name twice. -/
theorem addressable_of_forall_find? : ∀ {node : Node}, node.Distinct →
    (∀ names found, find? names node = some found → ∀ name ∈ names, Path.IsComponent name) →
    node.Addressable
  | file _, _, _ => trivial
  | directory entries, hdistinct, h => by
    refine entriesAddressable_of_forall_find? hdistinct.2 fun entry hentry names found hfound => ?_
    refine h (entry.1 :: names) found ?_
    rw [find?, Named.get?_of_mem hdistinct.1 hentry, Option.bind_some, hfound]

/-- The same for the entries of a directory, with the name of each entry before the names below it.
-/
theorem entriesAddressable_of_forall_find? :
    ∀ {entries : List (String × Node)}, EntriesDistinct entries →
      (∀ entry ∈ entries, ∀ names found, find? names entry.2 = some found →
        ∀ name ∈ entry.1 :: names, Path.IsComponent name) → EntriesAddressable entries
  | [], _, _ => trivial
  | (name, node) :: rest, hdistinct, h => by
    have hfirst := h (name, node) (.head _)
    refine ⟨hfirst [] node rfl name (.head _), ?_, ?_⟩
    · refine addressable_of_forall_find? hdistinct.1 fun names found hfound other hother => ?_
      exact hfirst names found hfound other (.tail _ hother)
    · exact entriesAddressable_of_forall_find? hdistinct.2 fun entry hentry =>
        h entry (.tail _ hentry)

end

end Node

namespace FileSystem

/-- Every node is found at the path along the names that lead to it, which are the names that the
path is cut into again. -/
def FindsAll (fs : FileSystem) : Prop :=
  ∀ names node, fs.root.find? names = some node →
    fs.lookup? (Path.ofComponents names) = some node ∧
      Path.components (Path.ofComponents names) = names

/-- A path made of components leads where these do. -/
theorem lookup?_ofComponents (fs : FileSystem) {names : List String}
    (h : ∀ name ∈ names, Path.IsComponent name) :
    fs.lookup? (Path.ofComponents names) = fs.root.find? names := by
  rw [lookup?, Path.components_ofComponents h]

/-- **Every node is found** when every name can stand in a path for itself, and only then. -/
theorem findsAll_iff {fs : FileSystem} : fs.FindsAll ↔ fs.root.Addressable := by
  constructor
  · intro h
    refine Node.addressable_of_forall_find? fs.distinct fun names found hfound => ?_
    exact Path.components_ofComponents_eq_iff.mp (h names found hfound).2
  · intro h names node hnode
    have hnames := h.isComponent hnode
    exact ⟨by rw [lookup?_ofComponents fs hnames, hnode], Path.components_ofComponents hnames⟩

/-- A node that is not found at its own path shows that not every node is. -/
theorem not_findsAll_of_isNone {fs : FileSystem} {names : List String}
    (hthere : (fs.root.find? names).isSome) (h : (fs.lookup? (Path.ofComponents names)).isNone) :
    ¬ fs.FindsAll := by
  intro hall
  obtain ⟨node, hnode⟩ := Option.isSome_iff_exists.mp hthere
  rw [(hall names node hnode).1] at h
  cases h

end FileSystem

end PocketShell
