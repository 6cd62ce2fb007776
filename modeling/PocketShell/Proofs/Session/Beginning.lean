import PocketShell.Proofs.Session.Restart
import PocketShell.Proofs.Tree.ReadBack

/-!
# What a beginning leaves in the store

A session saves at its start what it did not find in the store. `Session.Begun` says what is then
stored, and `Session.Begun.load` what a session that begins next finds there. Main statements:
`Session.start_start`, beginning once more changes nothing, and `Session.stored_start_iff`, when the
store then holds what the session begins with.
-/

namespace PocketShell

open KeepingStorage (values Accepts)

/-! ## Reading -/

/-- A node that is taken as a tree is so in its tidied form, without a mark of change. -/
theorem FileSystem.ofNode?_eq_some {node : Node} {files : FileSystem}
    (h : ofNode? node = some files) : files.root = node.tidy ∧ files.changed = false := by
  unfold ofNode? at h
  split at h
  · cases h
    exact ⟨rfl, rfl⟩
  · cases h

namespace Restored

/-- A tree that is restored is the one its text is read as, without a mark of change. -/
theorem readFiles_eq_some {written : Option String} {files : FileSystem}
    (h : (readFiles written).1 = some files) :
    written.bind Node.ofJson? = some files.root ∧ files.changed = false := by
  unfold readFiles at h
  split at h
  · cases h
  · split at h
    · cases h
    · next node hread =>
      split at h
      · next hnode =>
        cases h
        obtain ⟨hroot, hchanged⟩ := FileSystem.ofNode?_eq_some hnode
        rw [Node.tidy_eq_self (Node.distinct_of_ofJson? hread)] at hroot
        exact ⟨by rw [Option.bind_some, hread, hroot], hchanged⟩
      · cases h

/-- A path or a user is restored as the text that is quoted. -/
theorem readText_fst (written : Option String) :
    (readText written).1 = written.bind Json.unquote? := by
  cases written with
  | none => rfl
  | some written =>
    rw [readText, Option.bind_some]
    cases Json.unquote? written <;> rfl

end Restored

/-- The tree of the settings has no mark of change. -/
theorem Settings.changed_files (settings : Settings) : settings.files.1.changed = false := by
  unfold files
  split
  · next hnode => exact (FileSystem.ofNode?_eq_some hnode).2
  · rfl

namespace Context

variable {σ : Type} [Storage σ]

/-- To save a tree without a mark of change is to save its text, and nothing else. -/
theorem saveTree_of_not_changed {context : Context σ} (h : context.files.changed = false) :
    context.saveTree = context.save context.keys.tree context.files.root.toJson := by
  rw [saveTree, FileSystem.settled_of_not_changed h]

/-- To save a text unless it was restored changes one key of an accepting store at most. -/
theorem exists_ite_save [KeepingStorage σ] {p : Prop} [Decidable p] (context : Context σ)
    (h : Accepts context.store) (key written : String) : ∃ store,
    (if p then context else context.save key written) = { context with store } ∧ Accepts store ∧
      ∀ other, Storage.load store other =
        if ¬ p ∧ key = other then some written else Storage.load context.store other := by
  by_cases hp : p
  · refine ⟨context.store, by rw [if_pos hp], h, fun other => ?_⟩
    rw [if_neg (fun hother => hother.1 hp)]
  · obtain ⟨store, hsave, haccepts, hvalues⟩ := exists_save context h key written
    refine ⟨store, by rw [if_neg hp, hsave], haccepts, fun other => ?_⟩
    rw [KeepingStorage.load_eq, KeepingStorage.load_eq, hvalues, Std.ExtTreeMap.getElem?_insert]
    simp [hp]

/-- What saving the tree, the directory and the user leaves, or only some of them, in this order. -/
theorem exists_saves_eq [KeepingStorage σ] {p q r : Prop} [Decidable p] [Decidable q] [Decidable r]
    (context : Context σ) (h : Accepts context.store) : ∃ store,
    (let first := if p then context else context.save context.keys.tree context.files.root.toJson
      let second := if q then first else first.saveDirectory
      if r then second else second.saveUser) = { context with store } ∧
      Accepts store ∧ ∀ key, Storage.load store key =
        if ¬ r ∧ context.keys.user = key then some (Json.quote context.login.user)
        else if ¬ q ∧ context.keys.directory = key then some (Json.quote context.login.directory)
        else if ¬ p ∧ context.keys.tree = key then some context.files.root.toJson
        else Storage.load context.store key := by
  obtain ⟨first, htree, haccepts, hload⟩ :=
    context.exists_ite_save (p := p) h context.keys.tree context.files.root.toJson
  obtain ⟨second, hdirectory, haccepts', hload'⟩ :=
    exists_ite_save (p := q) { context with store := first } haccepts context.keys.directory
      (Json.quote context.login.directory)
  obtain ⟨third, huser, haccepts'', hload''⟩ :=
    exists_ite_save (p := r) { context with store := second } haccepts' context.keys.user
      (Json.quote context.login.user)
  refine ⟨third, ?_, haccepts'', fun key => ?_⟩
  · simp only [htree, saveDirectory, hdirectory, saveUser, huser]
  · rw [hload'', hload', hload]

end Context

namespace Session

variable {σ : Type}

/-! ## How a session opens -/

/-- A session opens with the tree that is restored, and with that of its settings if none is. -/
theorem files_opening (settings : Settings) (restored : Restored) (store : σ) :
    (opening settings restored store).files = restored.files.getD settings.files.1 := by
  rw [opening]
  cases restored.files <;> rfl

/-- The login with which a session opens: the restored user, or that of the settings, in the home of
the latter, at the start directory. -/
theorem login_opening (settings : Settings) (restored : Restored) (store : σ) :
    (opening settings restored store).login =
      .start (restored.user.getD settings.user) (User.home settings.user)
        (startDirectory (opening settings restored store).files (User.home settings.user)
          (if settings.startInHome then none else restored.directory)) := by
  rw [opening]

/-- What was restored is restored again, and what was saved is restored if it can be read. -/
structure Recalls (restored : Restored) (context : Context σ) (again : Restored) : Prop where
  files : again.files = restored.files.or
    (if context.files.root.depth ≤ Node.maxNesting then some context.files else none)
  directory : again.directory = restored.directory.or (some context.login.directory)
  user : again.user = restored.user.or ((some context.login.user).filter (· ≠ ""))

section
variable {settings : Settings} {restored again : Restored} {store : σ}

/-- What was restored or saved opens with the same tree again. -/
theorem Recalls.files_opening_eq (h : Recalls restored (opening settings restored store) again)
    (after : σ) :
    (opening settings again after).files = (opening settings restored store).files := by
  rw [files_opening settings again, h.files, files_opening settings restored]
  cases restored.files with
  | some files => rfl
  | none => split <;> rfl

/-- What was restored or saved opens with the same user again. An empty user is not restored, but
then the settings have it too. -/
theorem Recalls.user_eq (h : Recalls restored (opening settings restored store) again) :
    again.user.getD settings.user = restored.user.getD settings.user := by
  rw [h.user, login_opening]
  cases restored.user with
  | some user => rfl
  | none =>
    simp only [Login.start, Option.none_or, Option.getD_none, Option.filter_some]
    split <;> rfl

/-- What was restored or saved opens in the same directory again: the one that was saved is a
directory of this tree. -/
theorem Recalls.startDirectory_eq (h : Recalls restored (opening settings restored store) again) :
    let files := (opening settings restored store).files
    let home := User.home settings.user
    startDirectory files home (if settings.startInHome then none else again.directory) =
      startDirectory files home (if settings.startInHome then none else restored.directory) := by
  intro files home
  cases hhome : settings.startInHome with
  | true => rfl
  | false =>
    have hdirectory := h.directory
    rw [login_opening, hhome] at hdirectory
    rw [hdirectory]
    cases restored.directory with
    | some path => rfl
    -- The directory that the first session began in is one in this tree.
    | none =>
      simp only [Bool.false_eq_true, if_false, Option.none_or, Login.start]
      exact startDirectory_of_isDirectory (isDirectory_startDirectory files home none)

/-- What was restored or saved opens with the same login again. -/
theorem Recalls.login_opening_eq (h : Recalls restored (opening settings restored store) again)
    (after : σ) :
    (opening settings again after).login = (opening settings restored store).login := by
  have hdirectory := h.startDirectory_eq
  simp only at hdirectory
  rw [login_opening settings again, login_opening settings restored, h.user_eq,
    h.files_opening_eq after, hdirectory]

end

variable [Storage σ]

/-- The context in which a session begins on a store, before anything is saved. -/
def opened (settings : Settings) (store : σ) : Context σ :=
  opening settings (.load (.ofStem settings.stem) store) store

/-- A session opens without a mark of change. -/
theorem changed_opened (settings : Settings) (store : σ) :
    (opened settings store).files.changed = false := by
  rw [opened, files_opening]
  cases hfiles : (Restored.load (.ofStem settings.stem) store).files with
  | none => exact settings.changed_files
  | some files => exact (Restored.readFiles_eq_some hfiles).2

/-- Saving what was not restored sets no mark of change. -/
theorem changed_saveUnrestored (restored : Restored) {context : Context σ}
    (h : context.files.changed = false) :
    (saveUnrestored restored context).files.changed = false := by
  unfold saveUnrestored
  extract_lets afterTree afterDirectory
  have htree : afterTree.files.changed = false := by
    unfold afterTree
    split
    · exact h
    · obtain ⟨_, _, hsaved⟩ := context.saveTree_eq
      rw [hsaved]
      rfl
  obtain ⟨_, _, hdirectory⟩ := Context.exists_ite_eq (p := restored.directory.isSome)
    afterTree.saveDirectory_eq
  obtain ⟨_, _, huser⟩ := Context.exists_ite_eq (p := restored.user.isSome)
    afterDirectory.saveUser_eq
  rw [huser]
  unfold afterDirectory
  rwa [hdirectory]

/-- No change waits to be saved when calls have been answered. -/
theorem changed_after (settings : Settings) (store : σ) (calls : List Call) :
    ((start settings store).after calls).files.changed = false := by
  have hstart : (start settings store).files.changed = false :=
    changed_saveUnrestored _ (changed_opened settings store)
  exact after_induction (·.files.changed = false) (fun _ call _ h => changed_call h call) hstart

/-- An earlier path that is no directory now counts as none. -/
theorem startDirectory_of_not_isDirectory {files : FileSystem} {home path : String}
    (h : ¬ files.isDirectory path) :
    startDirectory files home (some path) = startDirectory files home none := by
  rw [startDirectory, Option.filter_some, if_neg h, startDirectory, Option.filter_none]

/-- A directory that is found is the one of the beginning, if it is used or happens to be the same
as the one in its place. -/
theorem eq_directory_opened_iff (settings : Settings) (store : σ) {path : String}
    (h : (Storage.load store (StorageKeys.ofStem settings.stem).directory).bind Json.unquote? =
      some path) :
    path = (opened settings store).login.directory ↔
      settings.startInHome = false ∧ (opened settings store).files.isDirectory path ∨
        path = startDirectory (opened settings store).files (User.home settings.user) none := by
  have hfound : (Restored.load (.ofStem settings.stem) store).directory = some path := by
    rw [← h, ← Restored.readText_fst, Restored.load]
  have hstart : (opened settings store).login.directory =
      startDirectory (opened settings store).files (User.home settings.user)
        (if settings.startInHome then none else some path) := by
    rw [← hfound, opened, login_opening]
    rfl
  rw [hstart]
  cases settings.startInHome with
  | true => simp
  | false =>
    by_cases hpath : (opened settings store).files.isDirectory path
    · simp [startDirectory_of_isDirectory hpath, hpath]
    · simp [startDirectory_of_not_isDirectory hpath, hpath]

variable [KeepingStorage σ]

/-! ## Saving what was not restored -/

/-- A store in which what was not restored has been saved, and nothing else touched. -/
structure Begun (restored : Restored) (context : Context σ) (after : σ) : Prop where
  accepts : Accepts after
  tree : Storage.load after context.keys.tree =
    if restored.files.isSome then Storage.load context.store context.keys.tree
    else some context.files.root.toJson
  directory : Storage.load after context.keys.directory =
    if restored.directory.isSome then Storage.load context.store context.keys.directory
    else some (Json.quote context.login.directory)
  user : Storage.load after context.keys.user =
    if restored.user.isSome then Storage.load context.store context.keys.user
    else some (Json.quote context.login.user)
  others : ∀ key ∉ context.keys.all, Storage.load after key = Storage.load context.store key

/-- Saving what was not restored writes the texts that were missing, on an accepting store, and
changes the context in nothing else. The keys differ, so that no text is written over another. -/
theorem exists_saveUnrestored_eq (restored : Restored) {context : Context σ}
    (haccepts : Accepts context.store) (hkeys : context.keys.all.Nodup)
    (hsettled : context.files.changed = false) :
    ∃ after, saveUnrestored restored context = { context with store := after } ∧
      Begun restored context after := by
  obtain ⟨after, hsaves, hafter, hload⟩ := context.exists_saves_eq (p := restored.files.isSome)
    (q := restored.directory.isSome) (r := restored.user.isSome) haccepts
  obtain ⟨hdirectory, huser, huser'⟩ := StorageKeys.ne_of_nodup_all hkeys
  refine ⟨after, ?_, hafter, ?_, ?_, ?_, fun key hkey => ?_⟩
  · rw [← hsaves, ← Context.saveTree_of_not_changed hsettled]
    rfl
  · rw [hload]
    cases restored.files <;> simp [hdirectory.symm, huser.symm]
  · rw [hload]
    cases restored.directory <;> simp [huser'.symm, hdirectory]
  · rw [hload]
    cases restored.user <;> simp [huser, huser']
  · simp only [StorageKeys.all, List.mem_cons, List.not_mem_nil, or_false, not_or] at hkey
    obtain ⟨htree, hdirectory, huser⟩ := hkey
    rw [hload]
    simp [Ne.symm htree, Ne.symm hdirectory, Ne.symm huser]

/-- A session begins as it opens, and saves what was not restored. -/
theorem exists_start_eq_of_accepts (settings : Settings) {store : σ} (haccepts : Accepts store) :
    ∃ after, start settings store =
        ⟨{ opened settings store with store := after }, settings.hostname⟩ ∧
      Begun (.load (.ofStem settings.stem) store) (opened settings store) after := by
  obtain ⟨after, hsave, hbegun⟩ := exists_saveUnrestored_eq (.load (.ofStem settings.stem) store)
    haccepts (StorageKeys.nodup_all_ofStem settings.stem) (changed_opened settings store)
  refine ⟨after, ?_, hbegun⟩
  rw [opened] at hsave ⊢
  rw [start, hsave]

/-! ## What the next session finds -/

/-- What was kept is read as before, and what was written in its place is read from what was
written. -/
theorem read_kept {α : Type} (read : Option String → Option α) {before after : Option String}
    {written : String} (h : after = if (read before).isSome then before else some written) :
    read after = (read before).or (read (some written)) := by
  rw [h]
  cases hread : read before with
  | none => rw [if_neg (by simp), Option.none_or]
  | some value => rw [if_pos (by simp), hread, Option.some_or]

/-- What is saved again because it cannot be read is what stands there already. -/
theorem kept_again {α : Type} (read : Option String → Option α)
    {before after again : Option String} {written : String}
    (hafter : after = if (read before).isSome then before else some written)
    (hagain : again = if (read after).isSome then after else some written) : again = after := by
  rw [hagain]
  cases hread : read before with
  | some value =>
    rw [hread, Option.isSome_some, if_pos rfl] at hafter
    rw [hafter, hread, Option.isSome_some, if_pos rfl]
  | none =>
    rw [hread, Option.isSome_none, if_neg Bool.false_ne_true] at hafter
    rw [hafter, ite_self]

section
variable {settings : Settings} {store after : σ}

/-- On a store in which what was not restored has been saved, the same is restored again, and the
rest is restored as it was saved. -/
theorem Begun.recalls
    (h : Begun (.load (.ofStem settings.stem) store) (opened settings store) after) :
    Recalls (.load (.ofStem settings.stem) store) (opened settings store)
      (.load (.ofStem settings.stem) after) := by
  have hfiles := read_kept (fun written => (Restored.readFiles written).1) h.tree
  have hdirectory := read_kept (fun written => (Restored.readText written).1) h.directory
  have huser := read_kept (fun written => (Restored.readText written).1.filter (· ≠ "")) h.user
  simp only [Restored.readFiles_toJson,
    FileSystem.settled_of_not_changed (changed_opened settings store)] at hfiles
  simp only [Restored.readText_quote] at hdirectory huser
  exact ⟨hfiles, hdirectory, huser⟩

/-- Where a session has begun, another opens as it did. -/
theorem Begun.opened_eq
    (h : Begun (.load (.ofStem settings.stem) store) (opened settings store) after) :
    (opened settings after).files = (opened settings store).files ∧
      (opened settings after).login = (opened settings store).login := by
  have hrecalls := h.recalls
  rw [opened] at hrecalls
  exact ⟨hrecalls.files_opening_eq after, hrecalls.login_opening_eq after⟩

/-- Where a session has begun, another leaves every text as it is. -/
theorem Begun.load_eq {again : σ}
    (hafter : Begun (.load (.ofStem settings.stem) store) (opened settings store) after)
    (hagain : Begun (.load (.ofStem settings.stem) after) (opened settings after) again)
    (key : String) : Storage.load again key = Storage.load after key := by
  obtain ⟨hfiles, hlogin⟩ := hafter.opened_eq
  have htree := hagain.tree
  have hdirectory := hagain.directory
  have huser := hagain.user
  rw [hfiles] at htree
  rw [hlogin] at hdirectory huser
  by_cases hkey : key ∈ (StorageKeys.ofStem settings.stem).all
  · simp only [StorageKeys.all, List.mem_cons, List.not_mem_nil, or_false] at hkey
    rcases hkey with rfl | rfl | rfl
    · exact kept_again (fun written => (Restored.readFiles written).1) hafter.tree htree
    · exact kept_again (fun written => (Restored.readText written).1) hafter.directory hdirectory
    · exact kept_again (fun written => (Restored.readText written).1.filter (· ≠ "")) hafter.user
        huser
  · exact hagain.others key hkey

end

/-! ## Beginning again -/

/-- Stores with the same text under every key hold the same texts. -/
theorem values_ext {first second : σ}
    (h : ∀ key, Storage.load first key = Storage.load second key) :
    values first = values second := by
  refine Std.ExtTreeMap.ext_getElem? fun key => ?_
  rw [← KeepingStorage.load_eq, ← KeepingStorage.load_eq, h]

/-- **Beginning is idempotent.** Whatever the store holds, a session that begins where another has
just begun has the same tree and the same login, and leaves every text in the store as it was. -/
theorem start_start (settings : Settings) (store : σ) (haccepts : Accepts store) :
    let first := start settings store
    let second := start settings first.store
    second.files = first.files ∧ second.login = first.login ∧
      values second.store = values first.store := by
  obtain ⟨after, hfirst, hafter⟩ := exists_start_eq_of_accepts settings haccepts
  obtain ⟨again, hsecond, hagain⟩ := exists_start_eq_of_accepts settings hafter.accepts
  obtain ⟨hfiles, hlogin⟩ := hafter.opened_eq
  simp only [hfirst, hsecond]
  exact ⟨hfiles, hlogin, values_ext (hafter.load_eq hagain)⟩

/-- A store that holds no tree and no user that can be read, and a directory that is not there. -/
theorem start_start_of_corrupt :
    let settings := { Settings.forUser "user" with startInHome := false }
    let store : RefusingStore :=
      { values := .ofList [("ripline_filesystem", "\x7bbroken"), ("ripline_current_user", "42"),
          ("ripline_current_path", "\"/gone\"")]
        refusals := { Refusals.none with remove := fun _ _ => some .unavailable } }
    let first := start settings store
    let second := start settings first.store
    Accepts store ∧ second.files = first.files ∧ second.login = first.login ∧
      values second.store = values first.store := by
  intro settings store
  have haccepts : Accepts store := fun _ _ => rfl
  exact ⟨haccepts, start_start settings store haccepts⟩

/-! ## What is stored of the beginning -/

section
variable {settings : Settings} {store after : σ}

/-- The tree is stored in a form that can be read, unless it nests too deep. -/
theorem Begun.ofJson?_tree_iff
    (h : Begun (.load (.ofStem settings.stem) store) (opened settings store) after) :
    (Storage.load after (StorageKeys.ofStem settings.stem).tree).bind Node.ofJson? =
        some (opened settings store).files.root ↔
      (opened settings store).files.root.depth ≤ Node.maxNesting := by
  constructor
  · intro hread
    obtain ⟨written, -, hnode⟩ := Option.bind_eq_some_iff.mp hread
    exact Node.depth_le_of_ofJson? hnode
  · intro hdepth
    have htree : Storage.load after (StorageKeys.ofStem settings.stem).tree = _ := h.tree
    cases hfiles : (Restored.load (.ofStem settings.stem) store).files with
    | some files =>
      rw [hfiles, Option.isSome_some, if_pos rfl] at htree
      rw [htree, opened, files_opening, hfiles, Option.getD_some]
      exact (Restored.readFiles_eq_some hfiles).1
    | none =>
      rw [hfiles, Option.isSome_none, if_neg Bool.false_ne_true] at htree
      have hread := Node.ofJson?_toJson (opened settings store).files.root
      rw [if_pos hdepth, Node.tidy_eq_self (opened settings store).files.distinct] at hread
      rw [htree, Option.bind_some, hread]

/-- The user is stored, whichever it is. -/
theorem Begun.unquote?_user
    (h : Begun (.load (.ofStem settings.stem) store) (opened settings store) after) :
    (Storage.load after (StorageKeys.ofStem settings.stem).user).bind Json.unquote? =
      some (opened settings store).login.user := by
  have huser : Storage.load after (StorageKeys.ofStem settings.stem).user = _ := h.user
  cases hname : (Restored.load (.ofStem settings.stem) store).user with
  | some user =>
    rw [hname, Option.isSome_some, if_pos rfl] at huser
    obtain ⟨hread, -⟩ := Option.filter_eq_some_iff.mp hname
    rw [Restored.readText_fst] at hread
    rw [huser, opened, login_opening, hname]
    exact hread
  | none =>
    rw [hname, Option.isSome_none, if_neg Bool.false_ne_true] at huser
    rw [huser, Option.bind_some, Json.unquote?_quote]

/-- The directory is stored, unless another stands there. -/
theorem Begun.unquote?_directory
    (h : Begun (.load (.ofStem settings.stem) store) (opened settings store) after) :
    (Storage.load after (StorageKeys.ofStem settings.stem).directory).bind Json.unquote? =
      ((Storage.load store (StorageKeys.ofStem settings.stem).directory).bind Json.unquote?).or
        (some (opened settings store).login.directory) := by
  have hread := h.recalls.directory
  simp only [Restored.load, Restored.readText_fst] at hread
  exact hread

end

/-- **When the store holds what a session begins with.** Its texts are the written forms of the
tree, the current directory and the current user exactly if the tree nests no deeper than the reader
goes, and the store did not hold another directory already: one that is found is left there even if
the session begins elsewhere, in the home directory or the root. -/
theorem stored_start_iff (settings : Settings) (store : σ) (haccepts : Accepts store) :
    let keys := StorageKeys.ofStem settings.stem
    let session := start settings store
    let home := User.home settings.user
    ((Storage.load session.store keys.tree).bind Node.ofJson? = some session.files.root ∧
        (Storage.load session.store keys.directory).bind Json.unquote? =
          some session.login.directory ∧
        (Storage.load session.store keys.user).bind Json.unquote? = some session.login.user) ↔
      session.files.root.depth ≤ 127 ∧
        ∀ path, (Storage.load store keys.directory).bind Json.unquote? = some path →
          settings.startInHome = false ∧ session.files.isDirectory path ∨
            path = if session.files.isDirectory home then home else "/" := by
  obtain ⟨after, hstart, hbegun⟩ := exists_start_eq_of_accepts settings haccepts
  simp only [hstart]
  rw [hbegun.ofJson?_tree_iff, hbegun.unquote?_user, hbegun.unquote?_directory]
  refine and_congr_right fun _ => ?_
  cases hfound : (Storage.load store (StorageKeys.ofStem settings.stem).directory).bind
      Json.unquote? with
  | none => simp
  | some path =>
    have hpath := eq_directory_opened_iff settings store hfound
    simp only [Option.some_or, Option.some.injEq, and_true, forall_eq', hpath]
    rfl

/-- A directory that is found and used, beside a tree that cannot be read. -/
theorem stored_start_of_found :
    let settings := { Settings.forUser "user" with startInHome := false }
    let store : MemoryStore :=
      ⟨.ofList [("ripline_filesystem", "\x7bbroken"), ("ripline_current_path", "\"/etc\"")]⟩
    let keys := StorageKeys.ofStem settings.stem
    let session := start settings store
    Accepts store ∧ (Storage.load session.store keys.tree).bind Node.ofJson? =
        some session.files.root ∧
      (Storage.load session.store keys.directory).bind Json.unquote? =
        some session.login.directory ∧
      (Storage.load session.store keys.user).bind Json.unquote? = some session.login.user := by
  intro settings store
  have haccepts : Accepts store := trivial
  have hdepth : (start settings store).files.root.depth ≤ 127 := by decide +kernel
  have hetc : (start settings store).files.isDirectory "/etc" := by decide +kernel
  have hfound : (Storage.load store (StorageKeys.ofStem settings.stem).directory).bind
      Json.unquote? = some "/etc" := by decide +kernel
  have hstored := stored_start_iff settings store haccepts
  -- From here on nothing depends on how the session begins.
  generalize start settings store = session at hdepth hetc hstored ⊢
  refine ⟨haccepts, hstored.mpr ⟨hdepth, fun path hpath => .inl ⟨rfl, ?_⟩⟩⟩
  obtain rfl : "/etc" = path := Option.some_inj.mp (hfound.symm.trans hpath)
  exact hetc

/-- A directory that is not there stays in the store, and the session begins elsewhere. -/
theorem stored_start_ne_of_gone :
    let settings := { Settings.forUser "user" with startInHome := false }
    let store : MemoryStore := ⟨.ofList [("ripline_current_path", "\"/gone\"")]⟩
    let keys := StorageKeys.ofStem settings.stem
    let session := start settings store
    Accepts store ∧
      ¬ ((Storage.load session.store keys.tree).bind Node.ofJson? = some session.files.root ∧
        (Storage.load session.store keys.directory).bind Json.unquote? =
          some session.login.directory ∧
        (Storage.load session.store keys.user).bind Json.unquote? = some session.login.user) := by
  intro settings store
  have hkept : (Storage.load (start settings store).store
      (StorageKeys.ofStem settings.stem).directory).bind Json.unquote? = some "/gone" := by
    decide +kernel
  have hhome : (start settings store).login.directory = "/home/user" := by decide +kernel
  generalize start settings store = session at hkept hhome ⊢
  refine ⟨trivial, fun ⟨_, hdirectory, _⟩ => ?_⟩
  rw [hkept, hhome] at hdirectory
  exact absurd hdirectory (by decide)

end Session

end PocketShell
