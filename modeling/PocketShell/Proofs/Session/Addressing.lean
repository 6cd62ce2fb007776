import PocketShell.Proofs.Session.Beginning
import PocketShell.Proofs.Tree.Addressable

/-!
# Whether the nodes of a starting tree can be addressed

A session starts with the tree that is restored, or else with the tree for its user. A directory in
the first may be written under any text, and one in the second is named for the user, whatever the
name. Main statement: `Session.findsAll_start_iff`, on which names it depends whether every node of
the starting tree is found.
-/

namespace PocketShell

namespace Seed

/-- No directory of the seed has a name twice, whatever the user is called. -/
theorem distinct_tree (user : String) : (tree user).Distinct := by
  unfold tree
  extract_lets isSuperuser
  split <;> simp [Node.Distinct, Node.EntriesDistinct, Named.names, homeDirectory]

/-- Every name in the home directory of the seed is a component. -/
theorem addressable_homeDirectory : homeDirectory.Addressable :=
  ⟨by decide, trivial, by decide, trivial, trivial⟩

/-- In the tree for a user the name of the user is the only one that is not fixed. -/
theorem addressable_tree_iff (user : String) :
    (tree user).Addressable ↔ user = User.superuser ∨ Path.IsComponent user := by
  have hhome : Path.IsComponent "home" := by decide
  have hroot : Path.IsComponent "root" := by decide
  have hetc : Path.IsComponent "etc" := by decide
  have hmotd : Path.IsComponent "motd" := by decide
  have htmp : Path.IsComponent "tmp" := by decide
  by_cases huser : user = User.superuser
  · simp [tree, huser, Node.Addressable, Node.EntriesAddressable, addressable_homeDirectory, hhome,
      hroot, hetc, hmotd, htmp]
  · simp [tree, huser, Node.Addressable, Node.EntriesAddressable, addressable_homeDirectory, hhome,
      hroot, hetc, hmotd, htmp]

end Seed

/-- The settings for a user come with the seed for that user: no directory of it has a name twice,
so it is taken as it is. -/
theorem Settings.root_files_forUser (user : String) :
    (forUser user).files.1.root = Seed.tree user :=
  Node.tidy_eq_self (Seed.distinct_tree user)

namespace Session

variable {σ : Type} [Storage σ]

/-- A session starts with the tree that is restored, and with that of its settings if none is. -/
theorem root_start (settings : Settings) (store : σ) :
    (start settings store).files.root =
      ((Restored.load (.ofStem settings.stem) store).files.getD settings.files.1).root := by
  obtain ⟨changed, after, notices, hstart⟩ := exists_start_eq settings store
  rw [hstart, files_opening]

/-- **Every node of a starting tree can be addressed** when every name in the tree that is restored
can stand in a path for itself; or, if none is restored, when the name of the user can, or is that
of the superuser. -/
theorem findsAll_start_iff (user : String) (store : σ) :
    let settings := Settings.forUser user
    let files := (start settings store).files
    (files.FindsAll ↔ files.root.Addressable) ∧
      (files.root.Addressable ↔
        match (Restored.load (.ofStem settings.stem) store).files with
        | some restored => restored.root.Addressable
        | none => user = User.superuser ∨ Path.IsComponent user) := by
  intro settings files
  refine ⟨FileSystem.findsAll_iff, ?_⟩
  have hroot : files.root =
      ((Restored.load (.ofStem settings.stem) store).files.getD settings.files.1).root :=
    root_start settings store
  rw [hroot]
  cases (Restored.load (.ofStem settings.stem) store).files with
  | some restored => rfl
  | none =>
    rw [Option.getD_none, Settings.root_files_forUser]
    exact Seed.addressable_tree_iff user

/-- A user whose name has a slash in it, and a stored tree with a directory named `..`. -/
theorem not_findsAll_start :
    let store : MemoryStore :=
      ⟨.ofList [("ripline_filesystem", "\x7b\"..\":\x7b\"x\":\"y\"\x7d\x7d")]⟩
    ¬ (start (.forUser "a/b") (MemoryStore.mk ∅)).files.FindsAll ∧
      ¬ (start (.forUser "user") store).files.FindsAll := by
  intro store
  constructor
  · have hthere : ((start (.forUser "a/b") (MemoryStore.mk ∅)).files.root.find?
        ["home", "a/b"]).isSome := by decide +kernel
    exact FileSystem.not_findsAll_of_isNone hthere (by decide +kernel)
  · have hthere : ((start (.forUser "user") store).files.root.find? ["..", "x"]).isSome := by
      decide +kernel
    exact FileSystem.not_findsAll_of_isNone hthere (by decide +kernel)

end Session

end PocketShell
