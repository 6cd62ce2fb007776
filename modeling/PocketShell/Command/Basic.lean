import PocketShell.Command.Error
import PocketShell.Named

/-!
# Commands

What a line may ask for: `Command` has a constructor for each thing that can be done, with its
operands as they were typed. `Command.table` gives each command name what it makes of its arguments;
the names that can be completed are the names of this table.
-/

namespace PocketShell

/-- Something that a line asks for. -/
inductive Command where
  /-- Show the commands. -/
  | help
  /-- List a directory, the current one if none is named. -/
  | ls (path : Option String)
  /-- Go to a directory, home if none is named. -/
  | cd (path : Option String)
  /-- Show the current directory. -/
  | pwd
  /-- Show a file. -/
  | cat (path : Option String)
  /-- Show the arguments. -/
  | echo (args : List String)
  /-- Clear the screen. -/
  | clear
  /-- Show the current user. -/
  | whoami
  /-- Show the time. -/
  | date
  /-- Show the name of the system, or all about it. -/
  | uname (all : Bool)
  /-- Show the variables. -/
  | env
  /-- Assign variables, or show how they are declared. -/
  | export (args : List String)
  /-- Take variables away. -/
  | unset (args : List String)
  /-- Show the lines typed so far. -/
  | history
  /-- Make directories. -/
  | mkdir (paths : List String)
  /-- Make files where there are none. -/
  | touch (paths : List String)
  /-- Remove files. -/
  | rm (paths : List String)
  /-- Draw the current directory. -/
  | tree
  /-- Open a file in the editor. -/
  | vi (path : Option String)
  /-- Become another user, the superuser if none is named. -/
  | su (user : Option String)
  /-- Show the processes. -/
  | ps (args : List String)
  /-- Forget the stored state, if the arguments ask for it. -/
  | reset (confirmed : Bool)
  deriving DecidableEq, Repr

namespace Command

/-- The command names in order, each with the command that it makes of its arguments. -/
def table : List (String × (List String → Command)) :=
  [("cat", fun args => .cat args.head?),
    ("cd", fun args => .cd args.head?),
    ("clear", fun _ => .clear),
    ("date", fun _ => .date),
    ("echo", .echo),
    ("env", fun _ => .env),
    ("export", .export),
    ("help", fun _ => .help),
    ("history", fun _ => .history),
    ("ls", fun args => .ls args.head?),
    ("mkdir", .mkdir),
    ("ps", .ps),
    ("pwd", fun _ => .pwd),
    ("reset", fun args => .reset (args.head? == some "-f" || args.head? == some "--filesystem")),
    ("rm", .rm),
    ("su", fun args => .su args.head?),
    ("touch", .touch),
    ("tree", fun _ => .tree),
    ("uname", fun args => .uname (args.contains "-a")),
    ("unset", .unset),
    ("vi", fun args => .vi args.head?),
    ("vim", fun args => .vi args.head?),
    ("whoami", fun _ => .whoami)]

/-- The command names, in order. -/
def names : List String :=
  table.map (·.1)

/-- The command that a name makes of its arguments. -/
def parse? (name : String) (args : List String) : Option Command :=
  (table.lookup name).map (· args)

/-- What is typed names no command exactly if its name is not in the list, whatever the operands
are. -/
theorem parse?_eq_none_iff {name : String} {args : List String} :
    parse? name args = none ↔ name ∉ names := by
  rw [parse?, Option.map_eq_none_iff]
  exact Named.get?_eq_none_iff

/-- The command names are in order, and each of them is there once. -/
theorem pairwise_names : names.Pairwise (· < ·) := by
  decide +kernel

end Command

/-- What a line comes to: text to show, or a signal to the host. -/
inductive Outcome where
  /-- Text to show; nothing is shown for an empty one. -/
  | text (value : String)
  /-- The screen is to be cleared. -/
  | clearScreen
  /-- A file is to be edited. -/
  | editorOpened
  /-- The current user is now another. -/
  | userSwitched (user : String)
  deriving DecidableEq, Repr

namespace Outcome

/-- Nothing to show. -/
def silent : Outcome := .text ""

/-- The text to show, if this is no signal. -/
def text? : Outcome → Option String
  | text value => some value
  | _ => none

/-- This is a signal, not text. -/
def isSignal : Outcome → Bool
  | text _ => false
  | _ => true

end Outcome

end PocketShell
