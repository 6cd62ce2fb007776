import PocketShell.Text.Column
import PocketShell.Text.Split

/-!
# The process table

The processes that `ps` shows. The table is made up: a few daemons, some intruders that show
themselves only where all processes are asked for, and the two processes of the one who asks. It is
in the order of the process numbers.
-/

namespace PocketShell.Command

/-- A row of the process table; the two percentages are in tenths. -/
structure Process where
  pid : Nat
  user : String
  cpu : Nat
  mem : Nat
  vsz : Nat
  rss : Nat
  tty : String
  stat : String
  start : String
  time : String
  command : String

/-- The name of the program alone. -/
def Process.program (process : Process) : String :=
  let first := process.command.toList.takeWhile (· != ' ')
  String.ofList (first.reverse.takeWhile (· != '/')).reverse

/-- What the arguments of `ps` ask for. -/
structure ProcessView where
  /-- Show the processes that hide. -/
  all : Bool := false
  /-- Show owners and sizes. -/
  wide : Bool := false
  /-- Show whole commands. -/
  full : Bool := false

/-- The view with what one more argument asks for; an argument without a meaning is passed over. -/
def ProcessView.add (view : ProcessView) (arg : String) : ProcessView :=
  if arg = "aux" ∨ arg = "-aux" then { all := true, wide := true, full := true }
  else if arg = "a" ∨ arg = "-a" then { view with all := true }
  else if arg = "u" ∨ arg = "-u" then { view with wide := true }
  else if arg = "x" ∨ arg = "-x" then { view with full := true }
  else if arg = "ef" ∨ arg = "-ef" then { view with all := true, full := true }
  else view

/-- The view that the arguments ask for. -/
def ProcessView.ofArgs (args : List String) : ProcessView :=
  args.foldl ProcessView.add {}

/-- The rows that do not depend on who asks, each with whether it hides. -/
def residents : List (Bool × Process) :=
  [(false, ⟨1, "root", 0, 1, 169420, 13452, "?", "Ss", "10:15", "0:01", "/sbin/init"⟩),
    (false, ⟨234, "root", 0, 2, 71256, 6234, "?", "S<s", "10:15", "0:00", "[kthreadd]"⟩),
    (false, ⟨512, "root", 1, 3, 284712, 15236, "?", "Ssl", "10:15", "0:02", "/usr/sbin/sshd -D"⟩),
    (true, ⟨666, "root", 123, 87, 2456789, 445123, "?", "R", "10:16", "15:42",
      "/usr/bin/.hidden/cryptominer --pool=darkpool.onion"⟩),
    (false, ⟨1024, "root", 0, 5, 445672, 28491, "?", "Ss", "10:15", "0:01",
      "/usr/sbin/nginx -g daemon off;"⟩),
    (true, ⟨1337, "kmitnick", 3, 21, 892341, 108234, "?", "S", "10:17", "0:23",
      "./backdoor.sh --listen 31337"⟩),
    (true, ⟨2600, "root", 8, 34, 1234567, 176234, "?", "Ss", "10:18", "1:12",
      "/opt/trojan/keylogger -o /tmp/.logs"⟩),
    (true, ⟨3133, "nobody", 12, 18, 734521, 92341, "?", "R", "10:19", "2:34",
      "python3 /tmp/botnet_client.py"⟩),
    (true, ⟨4096, "www-data", 2, 9, 456789, 45123, "?", "S", "10:20", "0:08",
      "/bin/bash /var/www/.shell/reverse.sh"⟩),
    (true, ⟨5555, "root", 156, 123, 3456789, 623451, "?", "R", "09:23", "45:17",
      "/usr/sbin/mimikatz --dump-creds"⟩),
    (true, ⟨6969, "kmitnick", 1, 4, 234567, 23456, "pts/0", "S", "11:42", "0:00",
      "nc -lvp 4444 -e /bin/bash"⟩)]

/-- The rows of the one who asks: the shell, and `ps` with its arguments. -/
def ownProcesses (user : String) (args : List String) : List Process :=
  [⟨7891, user, 0, 3, 123456, 12345, "pts/1", "Ss", "10:22", "0:00", "-bash"⟩,
    ⟨7892, user, 0, 1, 45678, 2345, "pts/1", "R+", "10:23", "0:00",
      Text.trimEnd ("ps " ++ " ".intercalate args)⟩]

/-- The rows that a view has before some are left out for their owner. -/
def processTable (view : ProcessView) (user : String) (args : List String) : List Process :=
  ((residents.filter fun row => view.all || !row.1).map (·.2)) ++ ownProcesses user args

/-- A number of tenths as a decimal fraction. -/
def tenths (n : Nat) : String :=
  Text.decimal (n / 10) ++ "." ++ Text.decimal (n % 10)

namespace Process

/-- A row with owner and sizes. -/
def wideRow (process : Process) : String :=
  " ".intercalate [
    Text.padEnd 10 process.user,
    Text.padStart 4 (Text.decimal process.pid),
    Text.padStart 4 (tenths process.cpu),
    Text.padStart 4 (tenths process.mem),
    Text.padStart 6 (Text.decimal process.vsz),
    Text.padStart 5 (Text.decimal process.rss),
    Text.padEnd 8 process.tty,
    Text.padEnd 4 process.stat,
    Text.padEnd 5 process.start,
    Text.padStart 6 process.time,
    process.command]

/-- A row with the whole command. -/
def fullRow (process : Process) : String :=
  " ".intercalate [
    Text.padStart 5 (Text.decimal process.pid),
    Text.padEnd 8 process.tty,
    Text.padEnd 4 process.stat,
    Text.padStart 6 process.time,
    process.command]

/-- A row with the name of the program. -/
def shortRow (process : Process) : String :=
  " ".intercalate [
    Text.padStart 5 (Text.decimal process.pid),
    Text.padEnd 12 process.tty,
    Text.padStart 8 process.time,
    process.program]

/-- The process belongs to the user, or to one who sits at a terminal. -/
def isNear (process : Process) (user : String) : Bool :=
  process.user == user || Text.beginsWith "pts" process.tty

end Process

/-- What `ps` shows a user. -/
def processListing (args : List String) (user : String) : String :=
  let view := ProcessView.ofArgs args
  let processes := processTable view user args
  "\n".intercalate <|
    if view.wide then
      "USER       PID %CPU %MEM    VSZ   RSS TTY      STAT START   TIME COMMAND" ::
        processes.map Process.wideRow
    else if view.full then
      "  PID TTY      STAT   TIME COMMAND" :: processes.map Process.fullRow
    else
      "  PID TTY          TIME CMD" ::
        (processes.filter (·.isNear user)).map Process.shortRow

end PocketShell.Command
