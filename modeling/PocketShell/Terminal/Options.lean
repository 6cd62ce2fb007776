import PocketShell.Text.Split

/-!
# The options of the program

The arguments are read from left to right. An option that takes a value has it attached, after an
equals sign in the long form, or as the next argument, which then must not look like an option. No
option may be given twice, and there is nothing but options.
-/

namespace PocketShell

/-- What the program is asked to do. -/
structure Options where
  /-- The user of a first session. -/
  user : Option String := none
  /-- The path of the file in which the state is kept. -/
  stateFile : Option String := none
  /-- The state that is kept is to be forgotten first. -/
  fresh : Bool := false
  /-- The only line to be executed. -/
  command : Option String := none
  deriving DecidableEq, Repr

namespace Options

/-- The options that take a value. -/
inductive Valued where
  | user
  | stateFile
  | command
  deriving DecidableEq, Repr

/-- An argument, as it is meant if no value is due. -/
inductive Argument where
  | help
  | version
  | fresh
  /-- An option that takes a value, with the value attached to it, if any. -/
  | valued (option : Valued) (attached : Option String)
  /-- The mark after which no options come. -/
  | separator
  deriving DecidableEq, Repr

/-- What the arguments ask for. -/
inductive Request where
  | run (options : Options)
  | help
  | version
  deriving DecidableEq, Repr

namespace Argument

/-- The value attached to a short option. -/
def attached? : List Char → Option String
  | [] => none
  | '=' :: value => some (String.ofList value)
  | value => some (String.ofList value)

/-- The argument with the long name `name`, and what follows an equals sign. -/
def ofLong? (name : String) (attached : Option String) : Option Argument :=
  match name, attached with
  | "", none => some .separator
  | "help", none => some .help
  | "version", none => some .version
  | "fresh", none => some .fresh
  | "user", value => some (.valued .user value)
  | "state-file", value => some (.valued .stateFile value)
  | _, _ => none

/-- The argument that a text is. -/
def ofText? (text : String) : Option Argument :=
  match text.toList with
  | '-' :: '-' :: long =>
    match Text.cutFirst? '=' (String.ofList long) with
    | some (name, value) => ofLong? name (some value)
    | none => ofLong? (String.ofList long) none
  | '-' :: 'h' :: _ => some .help
  | '-' :: 'V' :: _ => some .version
  | '-' :: 'u' :: rest => some (.valued .user (attached? rest))
  | '-' :: 'c' :: rest => some (.valued .command (attached? rest))
  | _ => none

end Argument

/-- The text can be the value of an option before it. -/
def isValue (text : String) : Bool :=
  text = "-" || !Text.beginsWith "-" text

/-- The options with a value for one more; it must be new, and a path must not be empty. -/
def set? (options : Options) (value : String) : Valued → Option Options
  | .user => if options.user.isSome then none else some { options with user := value }
  | .command => if options.command.isSome then none else some { options with command := value }
  | .stateFile =>
    if options.stateFile.isSome || value = "" then none
    else some { options with stateFile := value }

/-- What the remaining arguments ask for, after some options. -/
def parseFrom? (options : Options) : List String → Option Request
  | [] => some (.run options)
  | text :: rest =>
    match Argument.ofText? text with
    | none => none
    | some .help => some .help
    | some .version => some .version
    | some .separator => if rest.isEmpty then some (.run options) else none
    | some .fresh => if options.fresh then none else parseFrom? { options with fresh := true } rest
    | some (.valued option (some value)) =>
      match options.set? value option with
      | some options => parseFrom? options rest
      | none => none
    | some (.valued option none) =>
      match rest with
      | [] => none
      | value :: rest =>
        if isValue value then
          match options.set? value option with
          | some options => parseFrom? options rest
          | none => none
        else none

/-- What the arguments ask for; `none` if they are refused. -/
def parse? (args : List String) : Option Request :=
  parseFrom? {} args

/-- The program and its version. -/
def versionText : String := "ripsh 0.1.0\n"

/-- How the program is used. -/
def usageText : String :=
  "Unix-like shell over an in-memory filesystem\n\n" ++
  "Usage: ripsh [OPTIONS]\n\n" ++
  "Options:\n" ++
  "  -u, --user <USER>              User to start as (a persisted user takes precedence)\n" ++
  "      --state-file <STATE_FILE>  JSON file to persist session state in " ++
  "(in-memory when omitted)\n" ++
  "      --fresh                    Discard persisted state before starting\n" ++
  "  -c <COMMAND>                   Run a single command line and exit\n" ++
  "  -h, --help                     Print help\n" ++
  "  -V, --version                  Print version\n"

example : parse? ["-cls", "--user=", "--fresh"] =
    some (.run { user := "", fresh := true, command := "ls" }) := by decide +kernel

example : parse? ["-c", "--version"] = none := by decide +kernel

end Options

end PocketShell
