import PocketShell.Proofs.Session.Redirection

/-!
# Starting again after a reset

A confirmed `reset` takes everything out of the store, and only then is its output written to the
target of a redirection. That changes the tree, which is saved at the end of the line as after any
other; so the next session finds a tree again. `Storage.Cleared` says what it finds. Main statement:
`Session.restart_of_reset_iff`, when the next session begins as on an empty store.
-/

namespace PocketShell

open KeepingStorage (values Accepts)
open ObedientStorage (Obeys)

/-- What a line came to reports an error: its command broke, or its output could not be written. -/
def Line.Fails (line : Line) (outcome : Outcome) : Prop :=
  (∃ reason, outcome = .text ("Error executing " ++ line.name ++ ": " ++ reason)) ∨
    ∃ redirect reason, line.redirect = some redirect ∧
      outcome = .text ("bash: " ++ redirect.target ++ ": " ++ reason)

/-- A text that does not begin as an error of either kind does is none. -/
theorem Line.not_fails_of_head? {line : Line} {text : String}
    (h : text.toList.head? ≠ some 'E' ∧ text.toList.head? ≠ some 'b') :
    ¬ line.Fails (.text text) := by
  rintro (⟨reason, heq⟩ | ⟨redirect, reason, -, heq⟩)
  · cases heq
    exact h.1 (by simp)
  · cases heq
    exact h.2 (by simp)

namespace Storage

variable {σ : Type} [Storage σ]

/-- The store has nothing of a session under the keys, but perhaps a tree. -/
structure Cleared (keys : StorageKeys) (tree? : Option String) (store : σ) : Prop where
  tree : Storage.load store keys.tree = tree?
  directory : Storage.load store keys.directory = none
  user : Storage.load store keys.user = none

variable [KeepingStorage σ] [ObedientStorage σ]

/-- A store that obeys does so after any saving and taking out. -/
theorem keeps_obeys : Keeps (Obeys : σ → Prop) where
  save := ObedientStorage.obeys_save
  remove store key h := by
    obtain ⟨after, hremove, hobeys, -⟩ := ObedientStorage.remove_eq store key h
    rwa [hremove]

end Storage

open Storage (Cleared)

/-! ## Forgetting -/

namespace Command

variable {σ : Type} [Storage σ] [KeepingStorage σ] [ObedientStorage σ]

/-- A store that obeys gives up the texts under all the keys, and keeps the others. -/
theorem exists_removeAll_eq (keys : List String) {store : σ} (h : Obeys store) :
    ∃ after, removeAll keys store = (.ok (), after) ∧ Obeys after ∧
      ∀ key, Storage.load after key = if key ∈ keys then none else Storage.load store key := by
  induction keys generalizing store with
  | nil => exact ⟨store, rfl, h, fun _ => rfl⟩
  | cons first keys ih =>
    obtain ⟨next, hremove, hnext, hvalues⟩ := ObedientStorage.remove_eq store first h
    obtain ⟨after, hremoved, hafter, hload⟩ := ih hnext
    refine ⟨after, by rw [removeAll, hremove]; exact hremoved, hafter, fun key => ?_⟩
    rw [hload, KeepingStorage.load_eq, KeepingStorage.load_eq, hvalues,
      Std.ExtTreeMap.getElem?_erase]
    by_cases hkey : key = first
    · simp [hkey]
    · simp [hkey, Ne.symm hkey]

/-- `reset` with either flag as its first argument is confirmed. -/
theorem parse?_reset {args : List String}
    (h : args.head? = some "-f" ∨ args.head? = some "--filesystem") :
    parse? "reset" args = some (.reset true) := by
  have hlookup : parse? "reset" args =
      some (.reset (args.head? == some "-f" || args.head? == some "--filesystem")) := rfl
  rw [hlookup]
  rcases h with h | h <;> rw [h] <;> rfl

/-- On a store that obeys, what is stored of the session is forgotten, and the session itself goes
on as it is. -/
theorem exists_forget_eq (context : Context σ) (h : Obeys context.store) :
    ∃ text cleared, forget context = (.ok (.text text), cleared) ∧
      cleared.files = context.files ∧ cleared.login = context.login ∧
      cleared.keys = context.keys ∧ Obeys cleared.store ∧
      Cleared context.keys none cleared.store := by
  obtain ⟨after, hremoved, hafter, hload⟩ := exists_removeAll_eq context.keys.all h
  refine ⟨_, { context with store := after }.report ⟨.info, "persisted state cleared"⟩,
    by rw [forget, hremoved], rfl, rfl, rfl, hafter, ?_, ?_, ?_⟩ <;>
    simp [Context.report, hload, StorageKeys.all]

end Command

namespace Session

variable {σ τ : Type}

/-! ## The next session -/

/-- The start directory depends on the entries of the tree alone. -/
theorem startDirectory_congr {files files' : FileSystem} (h : files.root = files'.root)
    (home : String) (earlier : Option String) :
    startDirectory files home earlier = startDirectory files' home earlier := by
  have hsame : files.isDirectory = files'.isDirectory := by
    funext path
    rw [FileSystem.isDirectory, FileSystem.isDirectory, FileSystem.lookup?, FileSystem.lookup?, h]
  rw [startDirectory, startDirectory, hsame]

section
variable [Storage σ] [Storage τ]

/-- On a store that has a tree at most a session begins with that tree, or with what the settings
say. -/
theorem start_of_cleared (settings : Settings) {tree? : Option String} {store : σ}
    (h : Cleared (.ofStem settings.stem) tree? store) :
    let files := (Restored.readFiles tree?).1.getD settings.files.1
    (start settings store).files.root = files.root ∧
      (start settings store).login.directory =
        startDirectory files (User.home settings.user) none ∧
      (start settings store).login.user = settings.user := by
  intro files
  obtain ⟨changed, after, notices, hstart⟩ := exists_start_eq settings store
  have hload : Restored.load (.ofStem settings.stem) store =
      ⟨(Restored.readFiles tree?).1, none, none, (Restored.readFiles tree?).2⟩ := by
    simp [Restored.load, h.tree, h.directory, h.user, Restored.readText]
  rw [hstart, hload, login_opening, files_opening]
  refine ⟨rfl, ?_, rfl⟩
  simp only [ite_self]
  rfl

/-- Two sessions that begin with nothing but a tree begin alike if their trees are the same. -/
theorem start_eq_iff_of_cleared (settings : Settings) {tree? tree?' : Option String} {store : σ}
    {store' : τ} (h : Cleared (.ofStem settings.stem) tree? store)
    (h' : Cleared (.ofStem settings.stem) tree?' store') :
    ((start settings store).files.root = (start settings store').files.root ∧
        (start settings store).login.directory = (start settings store').login.directory ∧
        (start settings store).login.user = (start settings store').login.user) ↔
      (start settings store).files.root = (start settings store').files.root := by
  obtain ⟨hroot, hdirectory, huser⟩ := start_of_cleared settings h
  obtain ⟨hroot', hdirectory', huser'⟩ := start_of_cleared settings h'
  refine ⟨And.left, fun hsame => ⟨hsame, ?_, huser.trans huser'.symm⟩⟩
  rw [hroot, hroot'] at hsame
  rw [hdirectory, hdirectory', startDirectory_congr hsame]

end

/-! ## The line -/

variable [Storage σ]

variable [KeepingStorage σ] [ObedientStorage σ]

/-- A session on a store that obeys, with its keys, and with no change that waits to be saved. -/
structure Orderly (stem : String) (session : Session σ) : Prop where
  obeys : Obeys session.store
  keys : session.keys = .ofStem stem
  settled : session.files.changed = false

/-- After any calls the store obeys, the keys are those of the stem, and no change waits to be
saved. -/
theorem orderly_after (settings : Settings) {store : σ} (h : Obeys store) (calls : List Call) :
    ((start settings store).after calls).Orderly settings.stem := by
  obtain ⟨hobeys, hkeys⟩ := keeps_after Storage.keeps_obeys settings h calls
  exact ⟨hobeys, hkeys, changed_after settings store calls⟩

/-- After a line that forgets and reports no error the store has no tree, or the one that there is
since the output was written. -/
theorem cleared_execute {stem : String} {session : Session σ} (h : session.Orderly stem)
    (now : Calendar.Moment) {input : String} {line : Line}
    (hline : Line.parse input = .ok (some line))
    (hreset : Command.parse? line.name line.args = some (.reset true))
    (hquiet : ¬ line.Fails (session.execute now input).1) :
    Cleared (.ofStem stem)
      (if line.redirect.isSome then some (session.execute now input).2.files.root.toJson else none)
      (session.execute now input).2.store := by
  obtain ⟨text, forgot, hforget, hfiles, hlogin, hkeys, hobeys, hcleared⟩ :=
    Command.exists_forget_eq (session.record input) h.obeys
  have hstem : (session.record input).keys = .ofStem stem := h.keys
  rw [hstem] at hkeys hcleared
  have hdirectory : forgot.login.directory = session.login.directory :=
    congrArg (·.directory) hlogin
  have huser : forgot.login.user = session.login.user := congrArg (·.user) hlogin
  rw [execute_of_parse now session hline] at hquiet ⊢
  simp only [Context.answer, hreset, Command.run, hforget] at hquiet ⊢
  -- Nothing is saved after the removal unless the output is written into the tree.
  cases hredirect : line.redirect with
  | none =>
    have hsettled : forgot.files.changed = false := by rw [hfiles]; exact h.settled
    rw [Context.persist_eq_self forgot hdirectory huser hsettled]
    exact hcleared
  | some redirect =>
    simp only [hredirect, Context.divert_eq] at hquiet ⊢
    cases hedit : forgot.files.edit (forgot.resolve redirect.target)
        (.write text redirect.mode) with
    | error fault =>
      have hwrite : forgot.write redirect (.text text) = (some fault, forgot) :=
        Context.edit_of_error hedit
      rw [hwrite] at hquiet
      exact absurd (.inr ⟨redirect, fault.message, hredirect, rfl⟩) hquiet
    | ok files =>
      have hwrite : forgot.write redirect (.text text) = (none, { forgot with files }) :=
        Context.edit_of_ok hedit
      obtain ⟨store, htree, -, hsaved, hothers⟩ :=
        Context.exists_persistTree_eq { forgot with files } (ObedientStorage.accepts _ hobeys)
      have hpersist : Context.persist session.login { forgot with files } =
          Context.persistTree { forgot with files } :=
        Context.persist_of_same_login _ hdirectory huser
      obtain ⟨hfirst, hsecond, -⟩ :=
        StorageKeys.ne_of_nodup_all (StorageKeys.nodup_all_ofStem stem)
      simp only [hkeys] at hsaved hothers
      rw [hwrite, hpersist, htree]
      refine ⟨hsaved (FileSystem.changed_of_edit_write hedit), ?_, ?_⟩
      · rw [hothers _ hfirst.symm, hcleared.directory]
      · rw [hothers _ hsecond.symm, hcleared.user]

/-- The tree of the next session is the one of the settings, or the one that the output of the reset
was written into, if it can be read. -/
theorem restart_root_of_reset {settings : Settings} {session : Session σ}
    (h : session.Orderly settings.stem) (now : Calendar.Moment) {input : String} {line : Line}
    (hline : Line.parse input = .ok (some line))
    (hreset : Command.parse? line.name line.args = some (.reset true))
    (hquiet : ¬ line.Fails (session.execute now input).1) :
    let after := (session.execute now input).2
    (start settings after.store).files.root =
      if line.redirect.isSome ∧ after.files.root.depth ≤ Node.maxNesting then after.files.root
      else settings.files.1.root := by
  intro after
  obtain ⟨hroot, -, -⟩ := start_of_cleared settings (cleared_execute h now hline hreset hquiet)
  rw [hroot]
  cases line.redirect with
  | none => rfl
  | some redirect =>
    rw [Option.isSome_some, if_pos rfl, Restored.readFiles_toJson]
    simp only [true_and]
    split <;> rfl

/-- **When a reset brings the defaults back.** After a confirmed `reset` that reports no error the
next session has the tree, the directory and the user of one on an empty store exactly if the output
was not redirected; or it was, and the tree with it nests too deep to be read or is the one of the
settings anyway. -/
theorem restart_of_reset_iff [Storage τ] (settings : Settings) {store : σ} (hobeys : Obeys store)
    (calls : List Call) (now : Calendar.Moment) {input : String} {line : Line}
    (hline : Line.parse input = .ok (some line)) (hname : line.name = "reset")
    (hflag : line.args.head? = some "-f" ∨ line.args.head? = some "--filesystem") {empty : τ}
    (hempty : ∀ key, Storage.load empty key = none) :
    let executed := ((start settings store).after calls).execute now input
    let restarted := start settings executed.2.store
    let fresh := start settings empty
    ¬ line.Fails executed.1 →
      ((restarted.files.root = fresh.files.root ∧
          restarted.login.directory = fresh.login.directory ∧
          restarted.login.user = fresh.login.user) ↔
        (line.redirect = none ∨ Node.maxNesting < executed.2.files.root.depth ∨
          executed.2.files.root = fresh.files.root)) := by
  intro executed restarted fresh hquiet
  have hreset : Command.parse? line.name line.args = some (.reset true) := by
    rw [hname]
    exact Command.parse?_reset hflag
  have horderly := orderly_after settings hobeys calls
  have hcleared := cleared_execute horderly now hline hreset hquiet
  have hroot := restart_root_of_reset horderly now hline hreset hquiet
  have hfresh : Cleared (.ofStem settings.stem) none empty := ⟨hempty _, hempty _, hempty _⟩
  obtain ⟨hseed, -, -⟩ := start_of_cleared settings hfresh
  rw [start_eq_iff_of_cleared settings hcleared hfresh, hroot]
  split
  · next hboth =>
    obtain ⟨hredirect, hdepth⟩ := hboth
    refine ⟨fun heq => .inr (.inr heq), ?_⟩
    rintro (hnone | hdeep | heq)
    · rw [hnone] at hredirect
      cases hredirect
    · exact absurd hdeep (Nat.not_lt.mpr hdepth)
    · exact heq
  · next hneither =>
    refine iff_of_true hseed.symm ?_
    cases hredirect : line.redirect with
    | none => exact .inl rfl
    | some redirect =>
      rw [hredirect] at hneither
      exact .inr (.inl (Nat.not_le.mp fun hdepth => hneither ⟨rfl, hdepth⟩))

/-- After a file was removed, another user taken and a file saved, `reset -f` has the next session
start as on an empty store. -/
theorem restart_of_reset_plain :
    let settings := Settings.forUser "user"
    let calls := [Call.execute ⟨0, 0⟩ "rm README.txt", .execute ⟨0, 0⟩ "su root",
      .saveFile "notes" "text"]
    let executed := ((start settings (MemoryStore.mk ∅)).after calls).execute ⟨0, 0⟩ "reset -f"
    let restarted := start settings executed.2.store
    let fresh := start settings (MemoryStore.mk ∅)
    restarted.files.root = fresh.files.root ∧
      restarted.login.directory = fresh.login.directory ∧
      restarted.login.user = fresh.login.user := by
  intro settings calls
  have hobeys : Obeys (MemoryStore.mk ∅) := trivial
  have hline : Line.parse "reset -f" = .ok (some ⟨"reset", ["-f"], none⟩) := by decide +kernel
  have hempty (key : String) : Storage.load (MemoryStore.mk ∅) key = none :=
    Std.ExtTreeMap.getElem?_empty
  have houtcome : (((start settings (MemoryStore.mk ∅)).after calls).execute ⟨0, 0⟩ "reset -f").1 =
      .text "Filesystem reset. Start a new session to restore the defaults." := by decide +kernel
  have hrestart :=
    restart_of_reset_iff settings hobeys calls ⟨0, 0⟩ hline rfl (.inl rfl) hempty
  -- From here on nothing depends on how the line was executed.
  generalize ((start settings (MemoryStore.mk ∅)).after calls).execute ⟨0, 0⟩ "reset -f" = executed
    at houtcome hrestart ⊢
  have hquiet : ¬ Line.Fails ⟨"reset", ["-f"], none⟩ executed.1 := by
    rw [houtcome]
    exact Line.not_fails_of_head? (by decide)
  exact (hrestart hquiet).mpr (.inl rfl)

/-- A reset whose output goes to a file leaves the tree for the next session, with that file. -/
theorem restart_ne_of_reset_redirected :
    let settings := Settings.forUser "user"
    let line : Line := ⟨"reset", ["-f"], some ⟨"log", .overwrite⟩⟩
    let executed := (start settings (MemoryStore.mk ∅)).execute ⟨0, 0⟩ "reset -f > log"
    let restarted := start settings executed.2.store
    let fresh := start settings (MemoryStore.mk ∅)
    Line.parse "reset -f > log" = .ok (some line) ∧ ¬ line.Fails executed.1 ∧
      ¬ (restarted.files.root = fresh.files.root ∧
        restarted.login.directory = fresh.login.directory ∧
        restarted.login.user = fresh.login.user) := by
  intro settings line
  have hline : Line.parse "reset -f > log" = .ok (some line) := by decide +kernel
  have horderly : (start settings (MemoryStore.mk ∅)).Orderly settings.stem :=
    orderly_after settings (trivial : Obeys (MemoryStore.mk ∅)) []
  have hroot := restart_root_of_reset horderly ⟨0, 0⟩ hline rfl
  have hnone : ¬ ((start settings (MemoryStore.mk ∅)).files.lookup? "/home/user/log").isSome := by
    decide +kernel
  obtain ⟨executed, hexecuted⟩ : ∃ executed,
      (start settings (MemoryStore.mk ∅)).execute ⟨0, 0⟩ "reset -f > log" = executed := ⟨_, rfl⟩
  have hdone : executed.1 = .silent ∧ executed.2.files.root.depth ≤ Node.maxNesting ∧
      (executed.2.files.lookup? "/home/user/log").isSome := by
    rw [← hexecuted]
    decide +kernel
  rw [hexecuted] at hroot ⊢
  -- From here on nothing depends on how the line was executed.
  obtain ⟨houtcome, hdepth, hlog⟩ := hdone
  have hquiet : ¬ line.Fails executed.1 := by
    rw [houtcome]
    exact Line.not_fails_of_head? (by decide)
  have hkept : (start settings executed.2.store).files.root = executed.2.files.root :=
    (hroot hquiet).trans (if_pos ⟨rfl, hdepth⟩)
  refine ⟨hline, hquiet, fun ⟨hsame, _, _⟩ => hnone ?_⟩
  rw [FileSystem.lookup?, ← hsame, hkept]
  exact hlog

end Session

end PocketShell
