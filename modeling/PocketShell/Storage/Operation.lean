import PocketShell.Storage.StateFile

/-!
# Operations on a store

What may be done with a store, one operation after another; it may be closed and opened anew in
between, which for a store in memory comes to nothing. `Storage.answers` are the answers to a
sequence of operations, and `Storage.afterAll` is the store after them.
-/

namespace PocketShell

namespace Storage

/-- Something that is done with a store. -/
inductive Operation where
  | load (key : String)
  | save (key value : String)
  | remove (key : String)
  /-- Close the store and open it anew. -/
  | reopen

/-- What a store answers. -/
inductive Answer where
  | loaded (value : Option String)
  | done (result : Except StorageError Unit)
  | reopened

variable {σ : Type} [Storage σ] (reopen : σ → σ)

/-- Carries out an operation on a store that is opened anew by `reopen`. -/
def carryOut (store : σ) : Operation → Answer × σ
  | .load key => (.loaded (load store key), store)
  | .save key value =>
    let saved := save store key value
    (.done saved.1, saved.2)
  | .remove key =>
    let removed := remove store key
    (.done removed.1, removed.2)
  | .reopen => (.reopened, reopen store)

/-- The answers to some operations. -/
def answers (store : σ) : List Operation → List Answer
  | [] => []
  | operation :: operations =>
    let carriedOut := carryOut reopen store operation
    carriedOut.1 :: answers carriedOut.2 operations

/-- The store after some operations. -/
def afterAll (store : σ) : List Operation → σ
  | [] => store
  | operation :: operations => afterAll (carryOut reopen store operation).2 operations

end Storage

/-- The store that is there once a state file has been closed and opened anew. -/
def StateFile.reopen (file : StateFile) : StateFile :=
  (openAt file.disk).1

/-- The text under a key in the state file at a path, as it is found when the file is opened. -/
def Disk.text? (disk : Disk) (key : String) : Option String :=
  Storage.load (StateFile.openAt disk).1 key

/-- The members of the object of strings that stands at a path; none, if anything else stands
there. -/
def DiskContent.entries : DiskContent → List (String × String)
  | text value => (Json.Table.read? value).getD []
  | _ => []

end PocketShell
