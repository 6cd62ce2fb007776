import Std.Data.ExtTreeMap

/-!
# Stores

A store keeps texts under keys beyond the end of a session. `Storage` is what a session asks of it;
an operation that fails says why. A session keeps three texts, under keys that begin with the same
stem.
-/

namespace PocketShell

/-- Texts under keys, the keys in the order of their characters. -/
abbrev Values := Std.ExtTreeMap String String

/-- Why a store refuses an operation. -/
inductive StorageError where
  /-- There is no store. -/
  | unavailable
  /-- The text could not be written down. -/
  | serialize (key reason : String)
  /-- The text could not be stored. -/
  | write (key reason : String)
  /-- The text could not be taken out. -/
  | remove (key reason : String)
  deriving DecidableEq, Repr

/-- The error in words. -/
def StorageError.message : StorageError → String
  | unavailable => "storage not available"
  | serialize key reason => "failed to serialize " ++ key ++ ": " ++ reason
  | write key reason => "failed to write " ++ key ++ ": " ++ reason
  | remove key reason => "failed to remove " ++ key ++ ": " ++ reason

/-- What a session asks of a store. An operation answers with the store after it, failed or not. -/
class Storage (σ : Type) where
  /-- The text under a key. -/
  load : σ → String → Option String
  /-- Puts a text under a key. -/
  save : σ → String → String → Except StorageError Unit × σ
  /-- Takes out the text under a key; there need not be one. -/
  remove : σ → String → Except StorageError Unit × σ

/-- The keys under which a session keeps its state. -/
structure StorageKeys where
  /-- The key of the tree. -/
  tree : String
  /-- The key of the current directory. -/
  directory : String
  /-- The key of the current user. -/
  user : String
  deriving DecidableEq, Repr

namespace StorageKeys

/-- The keys that begin with a stem. -/
def ofStem (stem : String) : StorageKeys where
  tree := stem ++ "_filesystem"
  directory := stem ++ "_current_path"
  user := stem ++ "_current_user"

/-- The three keys. -/
def all (keys : StorageKeys) : List String :=
  [keys.tree, keys.directory, keys.user]

/-- The tree has a key. -/
theorem tree_mem_all (keys : StorageKeys) : keys.tree ∈ keys.all := .head _

/-- The directory has a key. -/
theorem directory_mem_all (keys : StorageKeys) : keys.directory ∈ keys.all := .tail _ (.head _)

/-- The user has a key. -/
theorem user_mem_all (keys : StorageKeys) : keys.user ∈ keys.all := .tail _ (.tail _ (.head _))

end StorageKeys

end PocketShell
