import PocketShell.Storage.Basic

/-!
# Stores in memory

`MemoryStore` keeps what it is given for as long as it lives and refuses nothing. `RefusingStore`
refuses the operations that its `Refusals` single out, by the key and by the number of operations
that came before; a refused operation changes no text.
-/

namespace PocketShell

/-- A store that keeps what it is given. -/
structure MemoryStore where
  values : Values := ∅

namespace MemoryStore

/-- The number of keys. -/
def size (store : MemoryStore) : Nat :=
  store.values.size

/-- No key has a text. -/
def isEmpty (store : MemoryStore) : Bool :=
  store.values.isEmpty

instance : Storage MemoryStore where
  load store key := store.values[key]?
  save store key value := (.ok (), { store with values := store.values.insert key value })
  remove store key := (.ok (), { store with values := store.values.erase key })

end MemoryStore

/-- Which operations are refused, and why: by the number of operations before and by the key. -/
structure Refusals where
  save : Nat → String → Option StorageError
  remove : Nat → String → Option StorageError

/-- Nothing is refused. -/
def Refusals.none : Refusals where
  save _ _ := .none
  remove _ _ := .none

/-- A store in memory that refuses some operations. -/
structure RefusingStore where
  values : Values := ∅
  refusals : Refusals := .none
  /-- The number of operations so far, refused ones included. -/
  attempts : Nat := 0

namespace RefusingStore

/-- Carries out an operation on the texts, unless it is refused. -/
def attempt (store : RefusingStore) (refusal : Option StorageError) (values : Values) :
    Except StorageError Unit × RefusingStore :=
  match refusal with
  | some error => (.error error, { store with attempts := store.attempts + 1 })
  | none => (.ok (), { store with values := values, attempts := store.attempts + 1 })

instance : Storage RefusingStore where
  load store key := store.values[key]?
  save store key value :=
    store.attempt (store.refusals.save store.attempts key) (store.values.insert key value)
  remove store key :=
    store.attempt (store.refusals.remove store.attempts key) (store.values.erase key)

end RefusingStore

end PocketShell
