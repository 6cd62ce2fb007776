import PocketShell.Json.Table
import PocketShell.Notice
import PocketShell.Storage.Basic
import PocketShell.Text.Utf8

/-!
# State files

A `StateFile` keeps its texts in one file, a JSON object of strings. The file is read once, when the
store is opened, and written in full at every change; one that cannot be read as such an object
counts as empty. The disk is a value here: what stands at the path, and the reason that writing to
the path would be refused, if it would. A change whose write is refused stays in memory.
-/

namespace PocketShell

/-- What stands at a path on the disk. -/
inductive DiskContent where
  /-- Nothing. -/
  | absent
  /-- A file of text. -/
  | text (value : String)
  /-- A file whose bytes are no text. -/
  | binary (bytes : List UInt8)
  /-- Something that cannot be read as a file. -/
  | unreadable

namespace DiskContent

/-- A file of some bytes. -/
def ofBytes (bytes : List UInt8) : DiskContent :=
  match Text.Utf8.decode? bytes with
  | some value => text value
  | none => binary bytes

/-- What can be read as text, with the replacement character for each flaw; nothing if there is no
file. -/
def shown? : DiskContent → Option String
  | absent => none
  | text value => some value
  | binary bytes => some (Text.Utf8.lossy bytes)
  | unreadable => none

end DiskContent

/-- A path on the disk. -/
structure Disk where
  content : DiskContent := .absent
  /-- Why a file cannot be written here, if it cannot. -/
  refusal : Option String := none

namespace Disk

/-- A path where a directory stands. -/
def directory : Disk where
  content := .unreadable
  refusal := some "Is a directory (os error 21)"

/-- A path in a directory that does not exist. -/
def orphan : Disk where
  refusal := some "No such file or directory (os error 2)"

/-- Writes a file of text, or says why not. -/
def write (disk : Disk) (value : String) : Except String Disk :=
  match disk.refusal with
  | some reason => .error reason
  | none => .ok { disk with content := .text value }

end Disk

/-- A store whose texts are kept in a file. -/
structure StateFile where
  values : Values
  disk : Disk

namespace StateFile

/-- The texts of a file, and what is reported if they cannot be read. -/
def readContent : DiskContent → Values × List Notice
  | .absent => (∅, [])
  | .text value =>
    match Json.Table.read? value with
    | some members => (Std.ExtTreeMap.ofList members, [])
    | none => (∅, [.warning "ignoring corrupt state file"])
  | .binary _ => (∅, [.warning "ignoring unreadable state file"])
  | .unreadable => (∅, [.warning "ignoring unreadable state file"])

/-- Opens the store at a path. -/
def openAt (disk : Disk) : StateFile × List Notice :=
  (⟨(readContent disk.content).1, disk⟩, (readContent disk.content).2)

/-- The written form of the texts, in the order of their keys. -/
def written (values : Values) : String :=
  Json.Table.write values.toList

/-- Takes over `values` and writes them to the disk. -/
def update (file : StateFile) (values : Values) (refused : String → StorageError) :
    Except StorageError Unit × StateFile :=
  match file.disk.write (written values) with
  | .ok disk => (.ok (), ⟨values, disk⟩)
  | .error reason => (.error (refused reason), { file with values := values })

instance : Storage StateFile where
  load file key := file.values[key]?
  save file key value := file.update (file.values.insert key value) (.write key)
  remove file key :=
    if key ∈ file.values then file.update (file.values.erase key) (.remove key) else (.ok (), file)

end StateFile

end PocketShell
