import PocketShell.Terminal.Program
import Std.Time.Format

/-!
# The command line

Reads the arguments, the clock, the state file and the lines of input, and prints. Everything that
is printed and kept is decided by `Options` and `Terminal`.
-/

namespace PocketShell.Main

/-- The moment that it is. -/
def currentMoment : IO Calendar.Moment := do
  let now ← Std.Time.DateTime.now
  return ⟨now.toTimestamp.toSecondsSinceUnixEpoch.val, now.timezone.offset.second.val⟩

/-- Whether a path can be written to, as a disk without content. -/
def probe (path : String) : IO Disk := do
  try
    IO.FS.withFile path .append fun _ => pure ()
    return {}
  catch
    | .noFileOrDirectory .. => return .orphan
    | _ => return .directory

/-- What is on the disk at a path. -/
def readDisk (path : String) : IO Disk := do
  let disk ← probe path
  try
    let bytes ← IO.FS.readBinFile path
    return { disk with content := .ofBytes bytes.toList }
  catch _ => return disk

/-- Writes what a store has put on the disk. -/
def writeDisk (path : String) (disk : Disk) : IO Unit :=
  match disk.refusal, disk.content with
  | none, .text value => IO.FS.writeFile path value
  | _, _ => pure ()

/-- The bytes of the next line, after those of `line`. -/
partial def readLine (input : IO.FS.Stream) (line : ByteArray) : IO ByteArray := do
  let bytes ← input.read 1
  if bytes.isEmpty || bytes.toList = [0x0A] then return line ++ bytes
  else readLine input (line ++ bytes)

/-- Prints a text at once. -/
def print (text : String) : IO Unit := do
  let output ← IO.getStdout
  output.putStr text
  output.flush

/-- Reports what went wrong. -/
def warn (notices : List Notice) : IO Unit := do
  for notice in notices do
    if notice.level = .error || notice.level = .warn then IO.eprintln notice.text

/-- The terminal after its notices are reported. -/
def reported {σ : Type} (terminal : Terminal σ) : IO (Terminal σ) := do
  let (notices, session) := terminal.session.takeNotices
  warn notices
  return { terminal with session }

/-- Lets a terminal take all that arrives, and gives its store to `keep` after each arrival. -/
partial def serve {σ : Type} [Storage σ] (keep : σ → IO Unit) (terminal : Terminal σ) :
    IO UInt32 := do
  if terminal.isDone then return 0
  print terminal.display
  let line ← readLine (← IO.getStdin) .empty
  let (text, terminal, ended?) := terminal.take (← currentMoment) (.ofBytes line.toList)
  keep terminal.session.store
  print text
  match ended? with
  | some code => return code.toUInt32
  | none => serve keep (← reported terminal)

/-- Runs a session with these options on a store. -/
def runOn {σ : Type} [Storage σ] (options : Options) (store : σ) (keep : σ → IO Unit) :
    IO UInt32 := do
  let (text, terminal) := options.start (← currentMoment) store
  keep terminal.session.store
  print text
  serve keep (← reported terminal)

/-- Runs the program with its arguments. -/
def runWith (args : List String) : IO UInt32 :=
  match Options.parse? args with
  | none => do
    IO.eprint Options.usageText
    return 2
  | some .help => do
    print Options.usageText
    return 0
  | some .version => do
    print Options.versionText
    return 0
  | some (.run options) =>
    match options.stateFile with
    | none => runOn options ({} : MemoryStore) fun _ => pure ()
    | some path => do
      let (file, notices) := StateFile.openAt (← readDisk path)
      warn notices
      runOn options file fun file => writeDisk path file.disk

end PocketShell.Main

/-- The program. -/
def main (args : List String) : IO UInt32 :=
  PocketShell.Main.runWith args
