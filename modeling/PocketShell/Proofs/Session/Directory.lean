import PocketShell.Proofs.Session.Change
import PocketShell.Proofs.Tree.PathMap

/-!
# The current directory exists

No edit takes a directory away, and only a directory becomes the current one. So whatever the store
holds at the start of a session and whatever it refuses later, the current directory is a directory
of the tree, and directories stay. Main statement: `Session.directory_exists_after`.
-/

namespace PocketShell

namespace FileSystem

/-- A directory at a path is one at its components. -/
theorem isDirectory_iff {fs : FileSystem} {path : String} :
    fs.isDirectory path ↔ fs.root.pathMap.kind? (Path.components path) = some .directory := by
  simp only [isDirectory, lookup?, Node.pathMap]
  cases Node.find? (Path.components path) fs.root with
  | none => simp
  | some node => cases node <;> simp [Node.isDirectory, Node.kind]

/-- The root is a directory. -/
theorem isDirectory_root (fs : FileSystem) : fs.isDirectory "/" := by
  have hroot : Path.components "/" = [] := by decide +kernel
  simpa [isDirectory, lookup?, hroot, Node.find?] using fs.rooted

/-- An edit leaves every directory: what it writes over or takes away is a file. -/
theorem isDirectory_of_edit {fs after : FileSystem} {path place : String} {edit : Edit}
    (hedit : fs.edit place edit = .ok after) (h : fs.isDirectory path) : after.isDirectory path :=
  isDirectory_iff.mpr ((edit_effect hedit).directory_stays (isDirectory_iff.mp h))

/-- An attempted edit leaves every directory. -/
theorem isDirectory_attempt {fs : FileSystem} {path place : String} {edit : Edit}
    (h : fs.isDirectory path) : (fs.attempt place edit).2.isDirectory path := by
  cases hedit : fs.edit place edit with
  | error fault => rwa [attempt_of_error hedit]
  | ok after => rw [attempt_of_ok hedit]; exact isDirectory_of_edit hedit h

end FileSystem

namespace Context

variable {σ : Type}

/-- The directories of an earlier tree are there still, and the current one is a directory. -/
structure Grounded (earlier : FileSystem) (context : Context σ) : Prop where
  stay : ∀ path, earlier.isDirectory path → context.files.isDirectory path
  current : context.files.isDirectory context.login.directory

/-- A step leaves the earlier directories, and enters only a directory that is there. -/
theorem Grounded.act {earlier : FileSystem} {before after : Context σ} (h : Act before after)
    (hbefore : before.Grounded earlier) : after.Grounded earlier := by
  cases h with
  | edit place edit =>
    exact ⟨fun other hother => FileSystem.isDirectory_attempt (hbefore.stay other hother),
      FileSystem.isDirectory_attempt hbefore.current⟩
  | enter hpath => exact ⟨hbefore.stay, hpath⟩
  | become | define | undefine | ask | report => exact ⟨hbefore.stay, hbefore.current⟩

/-- A change leaves the earlier directories and the current one. -/
theorem Grounded.change {earlier : FileSystem} {before after : Context σ} (h : Change before after)
    (hbefore : before.Grounded earlier) : after.Grounded earlier := by
  cases h with
  | act hact => exact hbefore.act hact
  | record | handOver | settle => exact ⟨hbefore.stay, hbefore.current⟩

end Context

namespace Session

variable {σ : Type} [Storage σ]

/-- Calls leave the earlier directories, and the current one is always a directory. -/
theorem grounded_after {earlier : FileSystem} {session : Session σ}
    (h : session.toContext.Grounded earlier) (calls : List Call) :
    (session.after calls).toContext.Grounded earlier :=
  after_keeps (·.Grounded earlier) (fun _ _ hchange => .change hchange) h calls

/-- The start directory is a directory: if neither the earlier one nor the home is there, then it is
the root. -/
theorem isDirectory_startDirectory (files : FileSystem) (home : String) (earlier : Option String) :
    files.isDirectory (startDirectory files home earlier) := by
  unfold startDirectory
  split
  · next path hpath =>
    obtain ⟨-, hdirectory⟩ := Option.filter_eq_some_iff.mp hpath
    exact hdirectory
  · split
    · assumption
    · exact files.isDirectory_root

/-- A session starts in a directory. -/
theorem isDirectory_directory_start (settings : Settings) (store : σ) :
    (start settings store).files.isDirectory (start settings store).login.directory := by
  obtain ⟨changed, store', notices, h⟩ := exists_start_eq settings store
  rw [h]
  exact isDirectory_startDirectory _ _ _

/-- **The current directory exists.** Whatever a store holds at the start of a session, and whatever
it refuses, after every sequence of calls the current directory is a directory of the tree, and
every path that then leads to a directory leads to one after all later calls. -/
theorem directory_exists_after (settings : Settings) (store : σ) (calls : List Call) :
    let session := (start settings store).after calls
    session.files.isDirectory session.login.directory ∧
      ∀ (later : List Call) (path : String), session.files.isDirectory path →
        (session.after later).files.isDirectory path := by
  have hstart := isDirectory_directory_start settings store
  have hsession := grounded_after ⟨fun _ h => h, hstart⟩ calls
  exact ⟨hsession.current, fun later =>
    (grounded_after ⟨fun _ h => h, hsession.current⟩ later).stay⟩

end Session

end PocketShell
