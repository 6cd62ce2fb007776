import PocketShell.Calendar
import PocketShell.Command.Basic
import PocketShell.Command.Context
import PocketShell.Command.Help
import PocketShell.Command.Processes
import PocketShell.Environment
import PocketShell.Tree.Listing
import PocketShell.User

/-!
# Running commands

`Command.run` carries out a command in a context, at a moment. What a command cannot do to an
operand it says in its text, as `command: operand: reason`, and goes on with the next operand; only
a command that breaks ends in an error.
-/

namespace PocketShell.Command

variable {σ : Type}

/-! ## Looking -/

/-- A directory in one line, or the name of a file. -/
def listing (context : Context σ) (path : Option String) : String :=
  let shown := path.getD "."
  match context.files.lookup? (context.resolve shown) with
  | none => "ls: cannot access '" ++ shown ++ "': " ++ Fault.noSuchEntry.message
  | some (.file _) => shown
  | some (.directory entries) =>
    "  ".intercalate (entries.map fun entry => (Listed.mk entry.1 entry.2.isDirectory).display)

/-- The content of a file. -/
def content (context : Context σ) : Option String → String
  | none => "cat: missing file operand"
  | some path =>
    match context.files.read (context.resolve path) with
    | .ok content => content
    | .error fault => "cat: " ++ path ++ ": " ++ fault.message

/-- A quotation mark of either kind. -/
def isQuote (c : Char) : Bool :=
  c == '"' || c == '\''

/-- The characters without a quotation mark at the start. -/
def dropQuote : List Char → List Char
  | [] => []
  | c :: cs => if isQuote c then cs else c :: cs

/-- The arguments in one line, without a quotation mark at either end of it. -/
def echoed (args : List String) : String :=
  String.ofList (dropQuote (dropQuote (" ".intercalate args).toList).reverse).reverse

/-- The lines of a history with their numbers. -/
def numbered (history : List String) : String :=
  "\n".intercalate (history.mapIdx fun i line => Text.decimal (i + 1) ++ "  " ++ line)

/-- The drawing of the current directory. -/
def draw (context : Context σ) : Except CommandError Outcome :=
  match context.files.drawing? context.login.directory with
  | some rows => .ok (.text ("\n".intercalate rows))
  | none => .error (.failed "directories without end")

/-! ## Operands -/

/-- Takes the operands one after another and answers the messages that come up. -/
def eachOperand (take : Context σ → String → Option String × Context σ) :
    List String → Context σ → List String × Context σ
  | [], context => ([], context)
  | operand :: operands, context =>
    let taken := take context operand
    let others := eachOperand take operands taken.2
    (taken.1.toList ++ others.1, others.2)

/-- Takes the operands one after another and shows the messages, one a line. -/
def onOperands (take : Context σ → String → Option String × Context σ) (operands : List String)
    (context : Context σ) : Outcome × Context σ :=
  let taken := eachOperand take operands context
  (.text ("\n".intercalate taken.1), taken.2)

/-- Makes a directory. -/
def makeDirectory (context : Context σ) (path : String) : Option String × Context σ :=
  let made := context.edit path (.create .directory)
  (made.1.map fun fault =>
    "mkdir: cannot create directory '" ++ path ++ "': " ++ fault.message, made.2)

/-- Makes a file, if there is none. -/
def makeFile (context : Context σ) (path : String) : Option String × Context σ :=
  let made := context.edit path (.create .file)
  (made.1.map fun fault => "touch: cannot touch '" ++ path ++ "': " ++ fault.message, made.2)

/-- Removes a file. -/
def removeFile (context : Context σ) (path : String) : Option String × Context σ :=
  let removed := context.edit path .remove
  (removed.1.map fun fault => "rm: cannot remove '" ++ path ++ "': " ++ fault.message, removed.2)

/-- Assigns or shows a variable. -/
def assignVariable (context : Context σ) (operand : String) : Option String × Context σ :=
  let assigned := Environment.assign context.login operand
  (assigned.1, { context with login := assigned.2 })

/-- Takes a variable away. -/
def discardVariable (context : Context σ) (operand : String) : Option String × Context σ :=
  let discarded := Environment.discard context.login operand
  (discarded.1, { context with login := discarded.2 })

/-! ## Going elsewhere -/

/-- Enters a directory; `shown` is what the user takes it for. -/
def enter (context : Context σ) (shown path : String) : Outcome × Context σ :=
  match context.files.lookup? path with
  | some (.directory _) => (.silent, { context with login := context.login.enter path })
  | some (.file _) => (.text ("cd: " ++ shown ++ ": " ++ Fault.notADirectory.message), context)
  | none => (.text ("cd: " ++ shown ++ ": " ++ Fault.noSuchEntry.message), context)

/-- Enters the directory that is named, or the home directory. -/
def changeDirectory (context : Context σ) : Option String → Outcome × Context σ
  | some path => enter context path (context.resolve path)
  | none => enter context context.login.home (Path.normalize context.login.home)

/-- Becomes another user. -/
def switchUser (context : Context σ) (user : Option String) : Outcome × Context σ :=
  let user := user.getD User.superuser
  if User.isName user then
    (.userSwitched user,
      { context.report ⟨.info, "switching user"⟩ with login := context.login.become user })
  else (.text ("su: user " ++ user ++ " does not exist"), context)

/-! ## Editing and forgetting -/

/-- What the editor is to start with at a place, or the fault that keeps it from opening. -/
def contentToEdit (files : FileSystem) (path : String) : Except Fault String :=
  match files.lookup? path with
  | some (.directory _) => .error .isADirectory
  | some (.file content) => .ok content
  | none =>
    match files.lookup? (Path.parent path) with
    | some (.directory _) => .ok ""
    | some (.file _) => .error .notADirectory
    | none => .error .noSuchParent

/-- Asks for a file to be opened in the editor. -/
def openEditor (context : Context σ) : Option String → Outcome × Context σ
  | none => (.text "vi: missing file operand", context)
  | some operand =>
    let path := context.resolve operand
    match contentToEdit context.files path with
    | .ok content => (.editorOpened, { context with request := some ⟨path, content⟩ })
    | .error fault => (.text ("vi: " ++ operand ++ ": " ++ fault.message), context)

/-- Takes texts out of a store, up to the first that it does not give up. -/
def removeAll [Storage σ] : List String → σ → Except StorageError Unit × σ
  | [], store => (.ok (), store)
  | key :: keys, store =>
    match Storage.remove store key with
    | (.ok (), store) => removeAll keys store
    | (.error error, store) => (.error error, store)

/-- Forgets what the store keeps of the session. -/
def forget [Storage σ] (context : Context σ) : Except CommandError Outcome × Context σ :=
  match removeAll context.keys.all context.store with
  | (.ok (), store) =>
    (.ok (.text "Filesystem reset. Start a new session to restore the defaults."),
      { context with store }.report ⟨.info, "persisted state cleared"⟩)
  | (.error error, store) => (.error (.failed error.message), { context with store })

/-! ## All commands -/

/-- The name of the system, and all about it. -/
def systemName (all : Bool) : String :=
  if all then "RIPLINE 1.0.0 ripline x86_64 GNU/Linux" else "RIPLINE"

/-- An answer of a command that does not break. -/
def done (answer : Outcome × Context σ) : Except CommandError Outcome × Context σ :=
  (.ok answer.1, answer.2)

@[simp] theorem done_snd (answer : Outcome × Context σ) : (done answer).2 = answer.2 := rfl

/-- What a command comes to, and the context after it. -/
def run [Storage σ] (now : Calendar.Moment) (context : Context σ) :
    Command → Except CommandError Outcome × Context σ
  | help => done (.text helpText, context)
  | ls path => done (.text (listing context path), context)
  | cd path => done (changeDirectory context path)
  | pwd => done (.text context.login.directory, context)
  | cat path => done (.text (content context path), context)
  | echo args => done (.text (echoed args), context)
  | clear => done (.clearScreen, context)
  | whoami => done (.text context.login.user, context)
  | date => done (.text now.text, context)
  | uname all => done (.text (systemName all), context)
  | env => done (.text (Environment.listing context.login), context)
  | .export [] => done (.text (Environment.declarations context.login), context)
  | .export (arg :: args) => done (onOperands assignVariable (arg :: args) context)
  | unset args => done (onOperands discardVariable args context)
  | history => done (.text (numbered context.login.history), context)
  | mkdir [] => done (.text "mkdir: missing operand", context)
  | mkdir (path :: paths) => done (onOperands makeDirectory (path :: paths) context)
  | touch [] => done (.text "touch: missing file operand", context)
  | touch (path :: paths) => done (onOperands makeFile (path :: paths) context)
  | rm [] => done (.text "rm: missing operand", context)
  | rm (path :: paths) => done (onOperands removeFile (path :: paths) context)
  | tree => (draw context, context)
  | vi path => done (openEditor context path)
  | su user => done (switchUser context user)
  | ps args => done (.text (processListing args context.login.user), context)
  | reset true => forget context
  | reset false =>
    done (.text "Usage: reset --filesystem (or -f) to reset the filesystem", context)

end PocketShell.Command
