import PocketShell.Proofs.Json.Table
import PocketShell.Proofs.Storage.Keeping
import PocketShell.Storage.Operation

/-!
# State files that are opened anew

A state file has its texts twice, in memory and on the disk, and not every operation writes: nothing
is written when a text is taken out that was not there, nor when a file is opened that cannot be
read. `StateFile.Settled` says that the disk would be read as what the memory holds; every operation
keeps that as long as writing is not refused, so it makes no difference to open the file anew. Main
statement: `StateFile.answers_eq_memory`.
-/

namespace PocketShell

/-- A list of all texts makes them up again. -/
theorem Values.ofList_toList (values : Values) : Std.ExtTreeMap.ofList values.toList = values := by
  refine Std.ExtTreeMap.ext_getElem? fun key => ?_
  cases h : values[key]? with
  | some value =>
    have hmem : (key, value) ∈ values.toList := Std.ExtTreeMap.mem_toList_iff_getElem?_eq_some.mpr h
    exact Std.ExtTreeMap.getElem?_ofList_of_mem Std.ReflCmp.compare_self
      Std.ExtTreeMap.distinct_keys_toList hmem
  | none =>
    have hmissing : key ∉ values := by simp [Std.ExtTreeMap.mem_iff_isSome_getElem?, h]
    refine Std.ExtTreeMap.getElem?_ofList_of_contains_eq_false ?_
    simpa using hmissing

namespace StateFile

open Storage (Operation)

/-! ## What is on the disk -/

/-- What is read of a disk are its entries; of equal keys the later counts. -/
theorem readContent_fst (content : DiskContent) :
    (readContent content).1 = .ofList content.entries := by
  cases content with
  | text value =>
    rw [readContent, DiskContent.entries]
    cases Json.Table.read? value <;> rfl
  | absent | binary | unreadable => rfl

/-- What is written to the disk is read back. -/
theorem readContent_written (values : Values) :
    readContent (.text (written values)) = (values, []) := by
  rw [readContent, written, Json.Table.read?_write]
  exact congrArg (·, []) values.ofList_toList

/-- The disk would be read as what the memory holds, and can be written. -/
structure Settled (file : StateFile) : Prop where
  read : (readContent file.disk.content).1 = file.values
  writable : file.disk.refusal = none

/-- A file that was opened on a writable disk is settled. -/
theorem settled_openAt {disk : Disk} (h : disk.refusal = none) : (openAt disk).1.Settled :=
  ⟨rfl, h⟩

/-- Opening a settled file anew changes nothing. -/
theorem Settled.reopen_eq {file : StateFile} (h : file.Settled) : file.reopen = file := by
  rw [reopen, openAt, h.read]

/-- An update of a settled file succeeds, and the file is settled after it: what is written is read
back. -/
theorem Settled.exists_update_eq {file : StateFile} (h : file.Settled) (values : Values)
    (refused : String → StorageError) :
    ∃ after, file.update values refused = (.ok (), after) ∧ after.values = values ∧
      after.Settled := by
  refine ⟨_, update_of_none h.writable values refused, rfl, ?_, h.writable⟩
  rw [readContent_written]

/-- A key that is not there is removed without a write. -/
theorem remove_eq (file : StateFile) (key : String) :
    Storage.remove file key =
      if key ∈ file.values then file.update (file.values.erase key) (.remove key)
      else (.ok (), file) := rfl

/-! ## Operations -/

/-- A store in memory with the same texts. -/
def inMemory (file : StateFile) : MemoryStore :=
  ⟨file.values⟩

/-- An operation comes to the same on a settled file and in memory, and leaves a settled file. -/
theorem Settled.carryOut {file : StateFile} (h : file.Settled) (operation : Operation) :
    let carriedOut := Storage.carryOut reopen file operation
    Storage.carryOut id file.inMemory operation = (carriedOut.1, carriedOut.2.inMemory) ∧
      carriedOut.2.Settled := by
  have hsame {values : Values} {after : StateFile} (hvalues : after.values = values) :
      (⟨values⟩ : MemoryStore) = after.inMemory := by rw [inMemory, hvalues]
  cases operation with
  | load key => exact ⟨rfl, h⟩
  | save key value =>
    obtain ⟨after, hupdate, hvalues, hafter⟩ :=
      h.exists_update_eq (file.values.insert key value) (.write key)
    have hsave : Storage.save file key value = (.ok (), after) := hupdate
    rw [Storage.carryOut, hsave]
    exact ⟨congrArg (Storage.Answer.done (.ok ()), ·) (hsame hvalues), hafter⟩
  | remove key =>
    rw [Storage.carryOut, remove_eq]
    split
    · obtain ⟨after, hupdate, hvalues, hafter⟩ :=
        h.exists_update_eq (file.values.erase key) (.remove key)
      rw [hupdate]
      exact ⟨congrArg (Storage.Answer.done (.ok ()), ·) (hsame hvalues), hafter⟩
    · next hkey =>
      have hvalues : file.values = file.values.erase key := (Values.erase_eq_self hkey).symm
      exact ⟨congrArg (Storage.Answer.done (.ok ()), ·) (hsame hvalues), h⟩
  | reopen =>
    rw [Storage.carryOut, h.reopen_eq]
    exact ⟨rfl, h⟩

/-- A settled file stays so under all operations, reopening included. -/
theorem Settled.afterAll {file : StateFile} (h : file.Settled) (operations : List Operation) :
    (Storage.afterAll reopen file operations).Settled := by
  induction operations generalizing file with
  | nil => exact h
  | cons operation operations ih => exact ih (h.carryOut operation).2

/-- A settled file answers all operations as a store in memory does. -/
theorem Settled.answers_eq {file : StateFile} (h : file.Settled) (operations : List Operation) :
    Storage.answers reopen file operations = Storage.answers id file.inMemory operations := by
  induction operations generalizing file with
  | nil => rfl
  | cons operation operations ih =>
    obtain ⟨hmemory, hafter⟩ := h.carryOut operation
    rw [Storage.answers, Storage.answers, hmemory, ih hafter]

/-- **A state file answers like a store in memory**, one that began with the members of the object
of strings that stood at its path, or with nothing if anything else did, and that is never closed.
So it makes no difference to what is answered later when the file is opened anew. -/
theorem answers_eq_memory {disk : Disk} (h : disk.refusal = none) (operations : List Operation) :
    let file := (openAt disk).1
    let memory : MemoryStore := ⟨.ofList disk.content.entries⟩
    let after := Storage.afterAll reopen file operations
    Storage.answers reopen file operations = Storage.answers id memory operations ∧
      ∀ later, Storage.answers reopen after.reopen later = Storage.answers reopen after later := by
  intro file memory after
  have hfile : file.Settled := settled_openAt h
  have hmemory : file.inMemory = memory := congrArg MemoryStore.mk (readContent_fst disk.content)
  refine ⟨?_, fun later => ?_⟩
  · rw [hfile.answers_eq, hmemory]
  · rw [(hfile.afterAll operations).reopen_eq]

/-- An object with a member that comes twice and characters that are written as escapes, and a file
that is no object of strings. -/
theorem answers_eq_memory_of_escapes :
    let written := "\x7b\"k\": \"1\", \"\\u00e9\\n\": \"2\", \"k\":\"3\"\x7d"
    let found : Disk := { content := .text written }
    let operations : List Operation := [.load "k", .remove "gone", .reopen, .save "\x01\"" "é\n😀",
      .reopen, .load "\x01\"", .remove "k", .reopen, .load "k", .load "é\n"]
    let file := (openAt found).1
    let memory : MemoryStore := ⟨.ofList found.content.entries⟩
    let after := Storage.afterAll reopen file operations
    found.content.entries = [("k", "1"), ("é\n", "2"), ("k", "3")] ∧
      Storage.answers reopen file operations = Storage.answers id memory operations ∧
      ∀ later, Storage.answers reopen after.reopen later = Storage.answers reopen after later := by
  intro written found operations
  have hfound : found.refusal = none := rfl
  exact ⟨by decide +kernel, answers_eq_memory hfound operations⟩

end StateFile

end PocketShell
