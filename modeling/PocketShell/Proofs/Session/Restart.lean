import PocketShell.Proofs.Session.Directory
import PocketShell.Proofs.Session.Sync
import PocketShell.Proofs.Tree.Document

/-!
# Restarting

A session that begins on the store of an earlier one, with the same settings. What the earlier one
kept is read back, but for a tree whose directories nest too deep to be read: it is written all the
same, and the next session begins with the tree of the settings in its place. Main statement:
`Session.restart_eq_iff`.
-/

namespace PocketShell

open KeepingStorage (values Accepts)

/-! ## Reading back what was kept -/

/-- A directory with a number of directories in one another. -/
def Node.nested : Nat → Node
  | 0 => .directory []
  | count + 1 => .directory [("deep", nested count)]

/-- The root of a tree can be taken as a tree again, as none of its directories has a name twice. -/
theorem FileSystem.ofNode?_root (files : FileSystem) : ofNode? files.root = some files.settled := by
  simp [ofNode?, files.rooted, settled, Node.tidy_eq_self files.distinct]

namespace Restored

/-- A tree that was written is read as it was if it does not nest too deep, and otherwise not at
all. -/
theorem readFiles_toJson (files : FileSystem) : (readFiles (some files.root.toJson)).1 =
    if files.root.depth ≤ Node.maxNesting then some files.settled else none := by
  rw [readFiles, Node.ofJson?_toJson]
  by_cases hdepth : files.root.depth ≤ Node.maxNesting
  · rw [if_pos hdepth, if_pos hdepth, Node.tidy_eq_self files.distinct]
    simp only [files.ofNode?_root]
  · rw [if_neg hdepth, if_neg hdepth]

/-- A text that was quoted is read as it was. -/
theorem readText_quote (text : String) : readText (some (Json.quote text)) = (some text, []) := by
  rw [readText, Json.unquote?_quote]

end Restored

namespace Context

variable {σ : Type}

/-- A change makes no user without a name: `su` takes none. -/
theorem named_change {user : String} {before after : Context σ} (h : Change before after)
    (hbefore : before.login.user = "" → user = "") : after.login.user = "" → user = "" := by
  cases h with
  | act hact =>
    cases hact with
    | become hname =>
      rintro rfl
      cases hname
    | edit | enter | define | undefine | ask | report => exact hbefore
  | record | handOver | settle => exact hbefore

variable [Storage σ] [KeepingStorage σ] {context : Context σ}

/-- What a later session has of one whose store is up to date. -/
theorem Synced.load {stem : String} (h : context.Synced stem) :
    let restored := Restored.load (.ofStem stem) context.store
    restored.files =
        (if context.files.root.depth ≤ Node.maxNesting then some context.files else none) ∧
      restored.directory = some context.login.directory ∧
      restored.user = (some context.login.user).filter (· ≠ "") := by
  have hnodup := StorageKeys.nodup_all_ofStem stem
  have hvalues := h.held.values_eq
  rw [h.keys] at hvalues
  have htree : Storage.load context.store (StorageKeys.ofStem stem).tree =
      some context.files.root.toJson := by
    rw [KeepingStorage.load_eq, hvalues, StorageKeys.getElem?_tree_holding _ _ _ hnodup]
  have hdirectory : Storage.load context.store (StorageKeys.ofStem stem).directory =
      some (Json.quote context.login.directory) := by
    rw [KeepingStorage.load_eq, hvalues, StorageKeys.getElem?_directory_holding _ _ _ hnodup]
  have huser : Storage.load context.store (StorageKeys.ofStem stem).user =
      some (Json.quote context.login.user) := by
    rw [KeepingStorage.load_eq, hvalues, StorageKeys.getElem?_user_holding]
  have hfiles := Restored.readFiles_toJson context.files
  rw [FileSystem.settled_of_not_changed h.settled] at hfiles
  refine ⟨?_, ?_, ?_⟩
  · rw [Restored.load, htree, hfiles]
  · rw [Restored.load, hdirectory, Restored.readText_quote]
  · rw [Restored.load, huser, Restored.readText_quote]

end Context

namespace Session

variable {σ : Type} [Storage σ] [KeepingStorage σ]

/-! ## The next session -/

/-- A session on what another has saved starts with its tree, if that does not nest too deep. -/
theorem restart_root (settings : Settings) {session : Session σ}
    (h : session.toContext.Synced settings.stem) : (start settings session.store).files.root =
      if session.files.root.depth ≤ Node.maxNesting then session.files.root
      else settings.files.1.root := by
  obtain ⟨hfiles, -, -⟩ := h.load
  obtain ⟨changed, store, notices, hstart⟩ := exists_start_eq settings session.store
  rw [hstart]
  simp only [opening, hfiles]
  by_cases hdepth : session.files.root.depth ≤ Node.maxNesting
  · rw [if_pos hdepth, if_pos hdepth]
  · rw [if_neg hdepth, if_neg hdepth]

/-- An earlier path that is a directory is where a session starts. -/
theorem startDirectory_of_isDirectory {files : FileSystem} {home path : String}
    (h : files.isDirectory path) : startDirectory files home (some path) = path := by
  rw [startDirectory, Option.filter_some, if_pos h]

/-- A session on what another has saved starts in its directory, if it does not start at home and
finds that directory. -/
theorem restart_directory {settings : Settings} {session : Session σ}
    (hhome : settings.startInHome = false) (h : session.toContext.Synced settings.stem)
    (hdirectory : (start settings session.store).files.isDirectory session.login.directory) :
    (start settings session.store).login.directory = session.login.directory := by
  obtain ⟨-, hearlier, -⟩ := h.load
  obtain ⟨changed, store, notices, hstart⟩ := exists_start_eq settings session.store
  rw [hstart] at hdirectory ⊢
  simp only [opening, hhome, hearlier, Login.start, Bool.false_eq_true, if_false]
  exact startDirectory_of_isDirectory hdirectory

/-- A session on what another has saved starts as its user; an empty user is not read, but is that
of the settings then. -/
theorem restart_user {settings : Settings} {session : Session σ}
    (h : session.toContext.Synced settings.stem)
    (hnamed : session.login.user = "" → settings.user = "") :
    (start settings session.store).login.user = session.login.user := by
  obtain ⟨-, -, huser⟩ := h.load
  obtain ⟨changed, store, notices, hstart⟩ := exists_start_eq settings session.store
  rw [hstart]
  simp only [opening, huser, Login.start]
  by_cases hempty : session.login.user = ""
  · rw [hempty, hnamed hempty]
    rfl
  · rw [Option.filter_some, if_pos (by simpa using hempty), Option.getD_some]

/-- A user without a name is the one of the settings. -/
theorem named_after (settings : Settings) {store : σ} (hempty : values store = ∅)
    (calls : List Call) :
    ((start settings store).after calls).login.user = "" → settings.user = "" := by
  refine after_keeps (·.login.user = "" → settings.user = "")
    (fun _ _ => Context.named_change) ?_ calls
  obtain ⟨changed, after, notices, hstart⟩ := exists_start_eq settings store
  rw [hstart, load_of_empty hempty]
  exact id

/-- **What a restart restores.** A session that begins where another ended has its tree, its current
directory and its current user exactly if the directories of the tree nest no deeper than the reader
goes, or the tree is the one of the settings. -/
theorem restart_eq_iff (settings : Settings) (store : σ) (hhome : settings.startInHome = false)
    (haccepts : Accepts store) (hempty : values store = ∅) {calls : List Call}
    (hcalls : ∀ call ∈ calls, call.Retains) :
    let ended := (start settings store).after calls
    let restarted := start settings ended.store
    (restarted.files.root = ended.files.root ∧
        restarted.login.directory = ended.login.directory ∧
        restarted.login.user = ended.login.user) ↔
      (ended.files.root.depth ≤ Node.maxNesting ∨
        ended.files.root = settings.files.1.root) := by
  intro ended restarted
  have hsynced := synced_after settings store haccepts hempty hcalls
  have hroot : restarted.files.root =
      if ended.files.root.depth ≤ Node.maxNesting then ended.files.root
      else settings.files.1.root := restart_root settings hsynced
  constructor
  · rintro ⟨hsame, -, -⟩
    by_cases hdepth : ended.files.root.depth ≤ Node.maxNesting
    · exact .inl hdepth
    · rw [hroot, if_neg hdepth] at hsame
      exact .inr hsame.symm
  · intro h
    -- The current directory is restored only if it is one in the tree that was restored.
    have hsame : restarted.files.root = ended.files.root := by
      rw [hroot]
      split
      · rfl
      · next hdepth => exact (h.resolve_left hdepth).symm
    have hstart := isDirectory_directory_start settings store
    have hended := (grounded_after ⟨fun _ h => h, hstart⟩ calls).current
    have hrestarted : restarted.files.isDirectory ended.login.directory := by
      rwa [FileSystem.isDirectory, FileSystem.lookup?, hsame]
    exact ⟨hsame, restart_directory hhome hsynced hrestarted,
      restart_user hsynced (named_after settings hempty calls)⟩

/-- A session that made and entered a directory, took another user and saved a file starts again as
it was. -/
theorem restart_eq_of_mkdir :
    let settings := { Settings.forUser "user" with startInHome := false }
    let calls := [Call.execute ⟨0, 0⟩ "mkdir notes", .execute ⟨0, 0⟩ "cd notes",
      .execute ⟨0, 0⟩ "su root", .saveFile "new" "text"]
    let ended := (start settings (MemoryStore.mk ∅)).after calls
    let restarted := start settings ended.store
    restarted.files.root = ended.files.root ∧
      restarted.login.directory = ended.login.directory ∧
      restarted.login.user = ended.login.user := by
  intro settings calls
  have hcalls : ∀ call ∈ calls, call.Retains := by decide +kernel
  have hdepth : ((start settings (MemoryStore.mk ∅)).after calls).files.root.depth ≤
      Node.maxNesting := by decide +kernel
  have hrestart := restart_eq_iff settings (MemoryStore.mk ∅) rfl trivial rfl hcalls
  -- From here on nothing depends on how the session came about.
  generalize (start settings (MemoryStore.mk ∅)).after calls = ended at hdepth hrestart ⊢
  exact hrestart.mpr (.inl hdepth)

/-- Directories that nest too deep are written, and are not there in the next session. -/
theorem restart_ne_of_nested :
    let settings := { Settings.forUser "user" with tree := .nested 127, startInHome := false }
    let calls := [Call.execute ⟨0, 0⟩ "mkdir notes"]
    let ended := (start settings (MemoryStore.mk ∅)).after calls
    let restarted := start settings ended.store
    settings.startInHome = false ∧ (∀ call ∈ calls, call.Retains) ∧
      ¬ (restarted.files.root = ended.files.root ∧
        restarted.login.directory = ended.login.directory ∧
        restarted.login.user = ended.login.user) := by
  intro settings calls
  have hcalls : ∀ call ∈ calls, call.Retains := by decide +kernel
  have hdepth : ¬ ((start settings (MemoryStore.mk ∅)).after calls).files.root.depth ≤
      Node.maxNesting := by decide +kernel
  have hnew :
      (((start settings (MemoryStore.mk ∅)).after calls).files.root.find? ["notes"]).isSome := by
    decide +kernel
  have hseed : ¬ (settings.files.1.root.find? ["notes"]).isSome := by decide +kernel
  have hroot := restart_root settings
    (synced_after settings (MemoryStore.mk ∅) trivial rfl hcalls)
  generalize (start settings (MemoryStore.mk ∅)).after calls = ended at hdepth hnew hroot ⊢
  refine ⟨rfl, hcalls, fun ⟨hsame, _, _⟩ => hseed ?_⟩
  rw [if_neg hdepth] at hroot
  rwa [← hroot, hsame]

end Session

end PocketShell
