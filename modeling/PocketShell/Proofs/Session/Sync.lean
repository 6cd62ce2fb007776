import PocketShell.Proofs.Command.Act
import PocketShell.Proofs.Storage.Keeping
import PocketShell.Session.Call

/-!
# The store is up to date

A session writes its tree down only when the mark of change is set, and its directory and its user
only when they differ from what they were before the line. `Context.Held` says which three texts the
store holds; each save replaces one of them. `Context.Synced` says that they are the written forms
of what the session has now: it holds at the start, and every call but a confirmed `reset` keeps it.
Main statement: `Session.values_after`.
-/

namespace PocketShell

open KeepingStorage (values Accepts)

namespace Context

variable {σ : Type}

/-! ## What a line changes -/

/-- One context comes of another without a change to the store, and marked unless the tree is the
same. -/
structure Marks (before after : Context σ) : Prop where
  store : after.store = before.store
  keys : after.keys = before.keys
  files : after.files = before.files ∨ after.files.changed = true

/-- A step leaves the store, and sets the mark of change if it changes the tree. -/
theorem Marks.act {start before after : Context σ} (h : Act before after)
    (hbefore : start.Marks before) : start.Marks after := by
  cases h with
  | edit place edit =>
    refine ⟨hbefore.store, hbefore.keys, ?_⟩
    rcases before.files.attempt_eq_or_changed place edit with hsame | hchanged
    · rcases hbefore.files with hfiles | hfiles
      · exact .inl (hsame.trans hfiles)
      · exact .inr ((congrArg FileSystem.changed hsame).trans hfiles)
    · exact .inr hchanged
  | enter | become | define | undefine | ask | report =>
    exact ⟨hbefore.store, hbefore.keys, hbefore.files⟩

/-! ## Saving -/

variable [Storage σ] [KeepingStorage σ]

/-- The store holds three texts, and refuses nothing. -/
structure Held (context : Context σ) (tree directory user : String) : Prop where
  accepts : Accepts context.store
  nodup : context.keys.all.Nodup
  values_eq : values context.store = context.keys.holding tree directory user

/-- On an accepting store a save puts a text under its key and changes nothing else. -/
theorem exists_save (context : Context σ) (h : Accepts context.store) (key written : String) :
    ∃ store, context.save key written = { context with store } ∧ Accepts store ∧
      values store = (values context.store).insert key written := by
  obtain ⟨store, hsave, haccepts, hvalues⟩ :=
    KeepingStorage.save_eq context.store key written h
  exact ⟨store, by rw [save, hsave], haccepts, hvalues⟩

variable {context : Context σ} {tree directory user : String}

/-- Saving the tree puts its text in the place of the one held. -/
theorem Held.saveTree (h : context.Held tree directory user) :
    context.saveTree.Held context.files.root.toJson directory user := by
  obtain ⟨store, hsave, haccepts, hvalues⟩ := exists_save
    { context with files := context.files.settled } h.accepts context.keys.tree
    context.files.root.toJson
  rw [Context.saveTree, hsave]
  refine ⟨haccepts, h.nodup, ?_⟩
  rw [hvalues, h.values_eq, StorageKeys.insert_tree_holding _ _ _ h.nodup]

/-- Saving the current path puts its text in the place of the one held. -/
theorem Held.saveDirectory (h : context.Held tree directory user) :
    context.saveDirectory.Held tree (Json.quote context.login.directory) user := by
  obtain ⟨store, hsave, haccepts, hvalues⟩ := exists_save context h.accepts context.keys.directory
    (Json.quote context.login.directory)
  rw [Context.saveDirectory, hsave]
  refine ⟨haccepts, h.nodup, ?_⟩
  rw [hvalues, h.values_eq, StorageKeys.insert_directory_holding _ _ _ h.nodup]

/-- Saving the current user puts its text in the place of the one held. -/
theorem Held.saveUser (h : context.Held tree directory user) :
    context.saveUser.Held tree directory (Json.quote context.login.user) := by
  obtain ⟨store, hsave, haccepts, hvalues⟩ := exists_save context h.accepts context.keys.user
    (Json.quote context.login.user)
  rw [Context.saveUser, hsave]
  refine ⟨haccepts, h.nodup, ?_⟩
  rw [hvalues, h.values_eq, StorageKeys.insert_user_holding]

/-- A tree that was not written down since it changed is marked. -/
theorem Held.persistTree (h : context.Held tree directory user)
    (htree : context.files.changed = false → tree = context.files.root.toJson) :
    context.persistTree.Held context.files.root.toJson directory user := by
  unfold Context.persistTree
  split
  · exact h.saveTree
  · next hsame => rwa [← htree (by simpa using hsame)]

/-- Persisting the path leaves that of the current directory, saved anew only if it is another one.
-/
theorem Held.persistDirectory {before : Login}
    (h : context.Held tree (Json.quote before.directory) user) :
    (context.persistDirectory before).Held tree (Json.quote context.login.directory) user := by
  unfold Context.persistDirectory
  split
  · next hsame => rwa [hsame]
  · exact h.saveDirectory

/-- Persisting the user leaves the current one, saved anew only if it is another one. -/
theorem Held.persistUser {before : Login}
    (h : context.Held tree directory (Json.quote before.user)) :
    (context.persistUser before).Held tree directory (Json.quote context.login.user) := by
  unfold Context.persistUser
  split
  · next hsame => rwa [hsame]
  · exact h.saveUser

/-- Persisting leaves the texts of the tree, the path and the user as they are now, if without a
mark of change the tree held is the current one. -/
theorem Held.persist {before : Login}
    (h : context.Held tree (Json.quote before.directory) (Json.quote before.user))
    (htree : context.files.changed = false → tree = context.files.root.toJson) :
    (context.persist before).Held context.files.root.toJson (Json.quote context.login.directory)
      (Json.quote context.login.user) := by
  have hpersisted := (h.persistTree htree).persistDirectory.persistUser
  rwa [login_persistDirectory, login_persistTree] at hpersisted

/-! ## Sessions whose store is up to date -/

/-- The store holds the written forms of the tree, the current directory and the current user under
the keys of the stem, and no change waits to be saved. -/
structure Synced (stem : String) (context : Context σ) : Prop where
  settled : context.files.changed = false
  keys : context.keys = .ofStem stem
  held : context.Held context.files.root.toJson (Json.quote context.login.directory)
    (Json.quote context.login.user)

/-- Saving all three on an empty store leaves it in step with the session. -/
theorem synced_saveAll {stem : String} (haccepts : Accepts context.store)
    (hkeys : context.keys = .ofStem stem) (hempty : values context.store = ∅) :
    context.saveTree.saveDirectory.saveUser.Synced stem := by
  obtain ⟨first, htree, hfirst, hvalues⟩ := exists_save
    { context with files := context.files.settled } haccepts context.keys.tree
    context.files.root.toJson
  obtain ⟨second, hdirectory, hsecond, hvalues'⟩ := exists_save
    { context with files := context.files.settled, store := first } hfirst context.keys.directory
    (Json.quote context.login.directory)
  obtain ⟨third, huser, hthird, hvalues''⟩ := exists_save
    { context with files := context.files.settled, store := second } hsecond context.keys.user
    (Json.quote context.login.user)
  have heq : context.saveTree.saveDirectory.saveUser =
      { context with files := context.files.settled, store := third } := by
    rw [saveTree, htree, saveDirectory, hdirectory, saveUser, huser]
  rw [heq]
  refine ⟨rfl, hkeys, hthird, hkeys ▸ StorageKeys.nodup_all_ofStem stem, ?_⟩
  rw [hvalues'', hvalues', hvalues, hempty, StorageKeys.holding_eq]
  rfl

/-- What has changed since the store was up to date is marked, or shows in the login. -/
theorem Synced.persist {stem : String} {before after : Context σ} (h : before.Synced stem)
    (hmarks : before.Marks after) : (after.persist before.login).Synced stem := by
  have hheld : after.Held before.files.root.toJson (Json.quote before.login.directory)
      (Json.quote before.login.user) := by
    refine ⟨?_, ?_, ?_⟩
    · rw [hmarks.store]
      exact h.held.accepts
    · rw [hmarks.keys]
      exact h.held.nodup
    · rw [hmarks.store, hmarks.keys]
      exact h.held.values_eq
  -- The texts are those of `before`; a tree without the mark is the one that was written.
  have hpersisted := hheld.persist fun hsame => by
    rcases hmarks.files with hfiles | hchanged
    · rw [hfiles]
    · rw [hchanged] at hsame
      cases hsame
  obtain ⟨store, notices, heq⟩ := after.persist_eq before.login
  rw [heq] at hpersisted ⊢
  exact ⟨rfl, hmarks.keys.trans h.keys, hpersisted⟩

end Context

namespace Session

variable {σ : Type} [Storage σ] [KeepingStorage σ]

/-! ## The beginning -/

/-- Nothing is restored from an empty store. -/
theorem load_of_empty {store : σ} (h : values store = ∅) (keys : StorageKeys) :
    Restored.load keys store = ⟨none, none, none, []⟩ := by
  have hload (key : String) : Storage.load store key = none := by
    rw [KeepingStorage.load_eq, h, Std.ExtTreeMap.getElem?_empty]
  simp [Restored.load, hload, Restored.readFiles, Restored.readText]

/-- A session that starts on an empty store is in step with it. -/
theorem synced_start (settings : Settings) (store : σ) (haccepts : Accepts store)
    (hempty : values store = ∅) : (start settings store).toContext.Synced settings.stem := by
  have hload := load_of_empty hempty (.ofStem settings.stem)
  rw [start, hload]
  simp only [saveUnrestored, Option.isSome_none, Bool.false_eq_true, if_false]
  exact Context.synced_saveAll haccepts rfl hempty

/-! ## Its course -/

/-- The call is no confirmed `reset`, which would take everything out of the store. -/
def Call.Retains : Call → Prop
  | .execute _ line => Line.command? line ≠ some (.reset true)
  | .saveFile .. | .complete _ | .takeRequest => True

instance : DecidablePred Call.Retains
  | .execute _ line => inferInstanceAs (Decidable (Line.command? line ≠ some (.reset true)))
  | .saveFile .. | .complete _ | .takeRequest => inferInstanceAs (Decidable True)

/-- A line leaves the session in step with its store, unless it is a confirmed `reset`. -/
theorem synced_execute {stem : String} {session : Session σ} (now : Calendar.Moment)
    {input : String} (hinput : Line.command? input ≠ some (.reset true))
    (h : session.toContext.Synced stem) :
    (session.execute now input).2.toContext.Synced stem := by
  by_cases hblank : Text.isAllBlank input
  · rwa [execute_of_blank now session hblank]
  · rw [execute_of_not_blank now session hblank]
    obtain ⟨store, notices, hstore, hreaches⟩ :=
      (session.toContext.record input).reaches_dispatch now input
    have hmarks := Context.keeps_of_steps session.toContext.Marks (fun _ _ => .act) hreaches
      ⟨hstore hinput, rfl, .inl rfl⟩
    exact h.persist hmarks

/-- A save of the editor leaves the session in step with its store. -/
theorem synced_saveFile {stem : String} {session : Session σ} (path content : String)
    (h : session.toContext.Synced stem) :
    (session.saveFile path content).2.toContext.Synced stem := by
  cases hedit : session.files.edit (Path.resolve session.login.directory path)
      (.write content .overwrite) with
  | error fault => rwa [saveFile_of_error session hedit]
  | ok files =>
    rw [saveFile_of_ok session hedit]
    have hmarks : session.toContext.Marks { session.toContext with files } :=
      ⟨rfl, rfl, FileSystem.eq_or_changed_of_edit hedit⟩
    have hpersisted := h.persist hmarks
    rwa [Context.persist_of_same_login { session.toContext with files } rfl rfl] at hpersisted

/-- A call leaves the session in step with its store, unless it asks to forget what is stored. -/
theorem synced_call {stem : String} {session : Session σ} {call : Call} (hcall : call.Retains)
    (h : session.toContext.Synced stem) : (session.call call).2.toContext.Synced stem := by
  cases call with
  | execute now line => rw [call_execute_snd]; exact synced_execute now hcall h
  | saveFile path content => rw [call_saveFile_snd]; exact synced_saveFile path content h
  | complete | takeRequest =>
    exact ⟨h.settled, h.keys, h.held.accepts, h.held.nodup, h.held.values_eq⟩

/-- After any calls of this kind a session that started on an empty store is in step with it. -/
theorem synced_after (settings : Settings) (store : σ) (haccepts : Accepts store)
    (hempty : values store = ∅) {calls : List Call} (hcalls : ∀ call ∈ calls, call.Retains) :
    ((start settings store).after calls).toContext.Synced settings.stem :=
  after_induction (·.toContext.Synced settings.stem)
    (fun _ call hcall => synced_call (hcalls call hcall))
    (synced_start settings store haccepts hempty)

/-- **The store is up to date after every call.** A session that began on an empty store keeps the
written forms of its tree, its current directory and its current user under the three keys of its
stem, and nothing else, until a `reset` is confirmed. -/
theorem values_after (settings : Settings) (store : σ) (haccepts : Accepts store)
    (hempty : values store = ∅) {calls : List Call} (hcalls : ∀ call ∈ calls, call.Retains) :
    let session := (start settings store).after calls
    values session.store = .ofList
      [(settings.stem ++ "_filesystem", session.files.root.toJson),
        (settings.stem ++ "_current_path", Json.quote session.login.directory),
        (settings.stem ++ "_current_user", Json.quote session.login.user)] := by
  have hsynced := synced_after settings store haccepts hempty hcalls
  have hvalues := hsynced.held.values_eq
  rwa [hsynced.keys] at hvalues

/-- After a directory was made, another user taken and a file saved, the store holds this session
under the three keys and nothing else. -/
theorem values_after_mkdir :
    let settings := Settings.forUser "user"
    let calls := [Call.execute ⟨0, 0⟩ "mkdir notes", .execute ⟨0, 0⟩ "su root",
      .saveFile "notes/new" "text"]
    let session := (start settings (MemoryStore.mk ∅)).after calls
    values session.store = .ofList
      [(settings.stem ++ "_filesystem", session.files.root.toJson),
        (settings.stem ++ "_current_path", Json.quote session.login.directory),
        (settings.stem ++ "_current_user", Json.quote session.login.user)] := by
  intro settings calls
  have hcalls : ∀ call ∈ calls, call.Retains := by decide +kernel
  exact values_after settings (MemoryStore.mk ∅) trivial rfl hcalls

end Session

end PocketShell
