import PocketShell.Proofs.Storage.Reopening

/-!
# Operations that a state file refuses

A state file takes a change over before it writes it to the disk. So as long as the file is open, a
change counts whether its write is refused or not (`StateFile.inMemory_afterAll`); and a text that
could not be taken out is gone from memory, so that nothing is written, and nothing refused, when it
is to be taken out once more. `StateFile.Withdraws` says that a refused operation leaves no trace.
Main statement: `StateFile.withdraws_iff`.
-/

namespace PocketShell

namespace StateFile

open Storage (Operation)

variable {file : StateFile} {operation : Operation}

/-- The file answers the operation with an error. -/
def Refuses (file : StateFile) (operation : Operation) : Prop :=
  ∃ error, (Storage.carryOut reopen file operation).1 = .done (.error error)

/-- The file is left as it was by an operation, as far as later operations can tell, and a removal
is not answered with success when it is tried once more. -/
structure Withdraws (file : StateFile) (operation : Operation) : Prop where
  /-- Whatever is done later, every text is then the one that would be there without the
  operation. -/
  load_eq (later : List Operation) (key : String) :
    Storage.load (Storage.afterAll reopen (Storage.carryOut reopen file operation).2 later) key =
      Storage.load (Storage.afterAll reopen file later) key
  repeated {key : String} : operation = .remove key →
    (Storage.remove (Storage.remove file key).2 key).1 ≠ .ok ()

/-! ## What is in memory -/

/-- On a disk that refuses writes an update fails, and the memory has the new values all the same.
-/
theorem update_of_some {reason : String} (h : file.disk.refusal = some reason) (values : Values)
    (refused : String → StorageError) :
    file.update values refused = (.error (refused reason), { file with values := values }) := by
  simp only [update, Disk.write, h]

/-- A change is taken over in memory, whether it can be written or not. -/
theorem inMemory_update (file : StateFile) (values : Values) (refused : String → StorageError) :
    (file.update values refused).2.inMemory = ⟨values⟩ := by
  cases h : file.disk.refusal with
  | none => rw [update_of_none h, inMemory]
  | some reason => rw [update_of_some h, inMemory]

/-- Where the write of a change is refused, the disk stays as it is. -/
theorem update_snd_of_error {values : Values} {refused : String → StorageError}
    {error : StorageError} (h : (file.update values refused).1 = .error error) :
    (file.update values refused).2 = { file with values := values } := by
  cases hrefusal : file.disk.refusal with
  | none =>
    rw [update_of_none hrefusal] at h
    cases h
  | some reason => rw [update_of_some hrefusal]

/-- Until the file is opened anew, an operation does in memory what it does to a store in memory,
refused or not. -/
theorem inMemory_carryOut (file : StateFile) (h : operation ≠ .reopen) :
    (Storage.carryOut reopen file operation).2.inMemory =
      (Storage.carryOut id file.inMemory operation).2 := by
  cases operation with
  | load key => rfl
  | save key value => exact inMemory_update file _ _
  | remove key =>
    rw [Storage.carryOut, remove_eq]
    split
    · exact inMemory_update file _ _
    · next hkey => exact congrArg MemoryStore.mk (Values.erase_eq_self hkey).symm
  | reopen => exact absurd rfl h

/-- Without reopening, the memory after some operations does not depend on whether the disk took
them. -/
theorem inMemory_afterAll (file : StateFile) {operations : List Operation}
    (h : ∀ operation ∈ operations, operation ≠ .reopen) :
    (Storage.afterAll reopen file operations).inMemory =
      Storage.afterAll id file.inMemory operations := by
  induction operations generalizing file with
  | nil => rfl
  | cons operation operations ih =>
    obtain ⟨hfirst, hothers⟩ := List.forall_mem_cons.mp h
    rw [Storage.afterAll, Storage.afterAll, ← inMemory_carryOut file hfirst, ih _ hothers]

/-! ## What is refused -/

/-- What is refused is a save, or the removal of a text that is there; of either the memory keeps
what it would keep if it were done, and the disk nothing. -/
theorem Refuses.cases (h : file.Refuses operation) :
    (∃ key value, operation = .save key value ∧
      (Storage.carryOut reopen file operation).2 =
        { file with values := file.values.insert key value }) ∨
    ∃ key, operation = .remove key ∧ key ∈ file.values ∧
      (Storage.carryOut reopen file operation).2 =
        { file with values := file.values.erase key } := by
  obtain ⟨error, herror⟩ := h
  cases operation with
  | load | reopen => cases herror
  | save key value =>
    have hupdate : (file.update (file.values.insert key value) (.write key)).1 = .error error :=
      Storage.Answer.done.inj herror
    exact .inl ⟨key, value, rfl, update_snd_of_error hupdate⟩
  | remove key =>
    have hremove : (Storage.remove file key).1 = .error error := Storage.Answer.done.inj herror
    rw [remove_eq] at hremove
    split at hremove
    · next hkey =>
      refine .inr ⟨key, rfl, hkey, ?_⟩
      rw [Storage.carryOut, remove_eq, if_pos hkey]
      exact update_snd_of_error hremove
    · cases hremove

/-- Reopening is never refused. -/
theorem Refuses.ne_reopen (h : file.Refuses operation) : operation ≠ .reopen := by
  rintro rfl
  obtain ⟨error, herror⟩ := h
  cases herror

/-- A removal is refused only for a key that is there: for another one nothing is written. -/
theorem Refuses.mem_values {key : String} (h : file.Refuses (.remove key)) : key ∈ file.values := by
  rcases h.cases with ⟨_, _, heq, -⟩ | ⟨other, heq, hkey, -⟩
  · cases heq
  · rwa [Operation.remove.inj heq]

/-! ## Traces -/

/-- What was refused counts in every later load, until the file is opened anew. -/
theorem Refuses.load_afterAll (h : file.Refuses operation) {later : List Operation}
    (hlater : ∀ next ∈ later, next ≠ .reopen) (key : String) :
    Storage.load (Storage.afterAll reopen (Storage.carryOut reopen file operation).2 later) key =
      Storage.load (Storage.afterAll id file.inMemory (operation :: later)) key := by
  have hmemory : ∀ next ∈ operation :: later, next ≠ .reopen :=
    List.forall_mem_cons.mpr ⟨h.ne_reopen, hlater⟩
  rw [← inMemory_afterAll file hmemory]
  rfl

/-- A refused save is withdrawn only if it has changed nothing, as the same text was there before.
-/
theorem Refuses.withdraws_save_iff {key value : String} (h : file.Refuses (.save key value)) :
    file.Withdraws (.save key value) ↔ Storage.load file key = some value := by
  rcases h.cases with ⟨_, _, heq, hafter⟩ | ⟨_, heq, -⟩
  · obtain ⟨rfl, rfl⟩ := Operation.save.inj heq
    constructor
    · intro hwithdraws
      have hload := hwithdraws.load_eq [] key
      rw [Storage.afterAll, Storage.afterAll, hafter] at hload
      rw [← hload]
      exact Std.ExtTreeMap.getElem?_insert_self
    · intro hthere
      have hsame : (Storage.carryOut reopen file (.save key value)).2 = file := by
        rw [hafter, Values.insert_eq_self hthere]
      exact ⟨fun later other => by rw [hsame], nofun⟩
  · cases heq

/-- A text that has been taken out of memory is taken out with success. -/
theorem remove_remove_of_mem {key : String} (h : key ∈ file.values) :
    (Storage.remove (Storage.remove file key).2 key).1 = .ok () := by
  have hvalues : (Storage.remove file key).2.values = file.values.erase key := by
    rw [remove_eq, if_pos h]
    exact congrArg MemoryStore.values (inMemory_update file _ _)
  rw [remove_eq, if_neg (by simp [hvalues])]

/-- **When a refused operation leaves no trace:** if it was to save the text that is there already,
and only then. In any case every later load is answered as if it had been done, until the file is
opened anew; and a removal that has been refused is answered with success as soon as it is tried
once more. -/
theorem withdraws_iff (h : file.Refuses operation) :
    (file.Withdraws operation ↔
      ∃ key value, operation = .save key value ∧ Storage.load file key = some value) ∧
    (∀ later, (∀ next ∈ later, next ≠ .reopen) → ∀ key,
      Storage.load (Storage.afterAll reopen (Storage.carryOut reopen file operation).2 later) key =
        Storage.load (Storage.afterAll id file.inMemory (operation :: later)) key) ∧
    ∀ key, operation = .remove key → (Storage.remove (Storage.remove file key).2 key).1 = .ok () := by
  have hagain : ∀ key, operation = .remove key →
      (Storage.remove (Storage.remove file key).2 key).1 = .ok () := by
    rintro key rfl
    exact remove_remove_of_mem h.mem_values
  refine ⟨?_, fun later hlater key => h.load_afterAll hlater key, hagain⟩
  rcases h.cases with ⟨key, value, rfl, -⟩ | ⟨key, rfl, -⟩
  · rw [h.withdraws_save_iff]
    constructor
    · exact fun hthere => ⟨key, value, rfl, hthere⟩
    · rintro ⟨_, _, heq, hthere⟩
      obtain ⟨rfl, rfl⟩ := Operation.save.inj heq
      exact hthere
  · exact iff_of_false (fun hwithdraws => hwithdraws.repeated rfl (hagain key rfl)) nofun

/-- A text that is saved once more where nothing can be written. -/
theorem withdraws_of_same_text :
    let written : Disk :=
      { content := .text "\x7b\"k\":\"v\"\x7d", refusal := some "read-only" }
    let file := (openAt written).1
    file.Refuses (.save "k" "v") ∧ file.Withdraws (.save "k" "v") := by
  intro written file
  have hrefuses : file.Refuses (.save "k" "v") := ⟨.write "k" "read-only", rfl⟩
  have hthere : Storage.load file "k" = some "v" := by decide +kernel
  exact ⟨hrefuses, (withdraws_iff hrefuses).1.mpr ⟨"k", "v", rfl, hthere⟩⟩

/-- Where a directory stands, a text that cannot be saved is there; and a text that cannot be taken
out of a file is gone, is then taken out with success, and is there again when the file is opened
anew. -/
theorem not_withdraws_of_refused :
    let nowhere := (openAt .directory).1
    let written : Disk :=
      { content := .text "\x7b\"k\":\"v\"\x7d", refusal := some "read-only" }
    let file := (openAt written).1
    let once := (Storage.remove file "k").2
    let twice := Storage.remove once "k"
    (nowhere.Refuses (.save "k" "v") ∧ ¬ nowhere.Withdraws (.save "k" "v")) ∧
      (file.Refuses (.remove "k") ∧ ¬ file.Withdraws (.remove "k")) ∧
      Storage.load once "k" = none ∧ twice.1 = .ok () ∧
      Storage.load twice.2.reopen "k" = some "v" := by
  intro nowhere written file once twice
  have hnowhere : nowhere.Refuses (.save "k" "v") :=
    ⟨.write "k" "Is a directory (os error 21)", rfl⟩
  have hloaded : Storage.load (Storage.save nowhere "k" "v").2 "k" = some "v" ∧
      Storage.load nowhere "k" = none := by decide +kernel
  have hfile : file.Refuses (.remove "k") := ⟨.remove "k" "read-only", rfl⟩
  have hthere : "k" ∈ file.values := by decide +kernel
  have htwice : twice.1 = .ok () := remove_remove_of_mem hthere
  obtain ⟨hgone, hback⟩ : Storage.load once "k" = none ∧
      Storage.load twice.2.reopen "k" = some "v" := by decide +kernel
  refine ⟨⟨hnowhere, fun hwithdraws => ?_⟩, ⟨hfile, fun hwithdraws => ?_⟩, hgone, htwice, hback⟩
  · have hload : Storage.load (Storage.save nowhere "k" "v").2 "k" = Storage.load nowhere "k" :=
      hwithdraws.load_eq [] "k"
    rw [hloaded.1, hloaded.2] at hload
    cases hload
  · exact hwithdraws.repeated rfl htwice

end StateFile

end PocketShell
