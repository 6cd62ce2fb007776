/-!
# The help text

What `help` shows.
-/

namespace PocketShell.Command

/-- A line for each command, and how to redirect. -/
def helpText : String :=
  "\n".intercalate [
    "Available commands:",
    "  help          - Show this help message",
    "  ls [path]     - List directory contents",
    "  cd [dir]      - Change directory",
    "  pwd           - Print working directory",
    "  cat [file]    - Display file contents",
    "  echo [text]   - Display a line of text",
    "  clear         - Clear the terminal",
    "  whoami        - Print current user",
    "  su [user]     - Switch user (default: root)",
    "  date          - Display current date and time",
    "  uname [-a]    - Print system information",
    "  env           - Print environment variables",
    "  export [K=V]  - Set or list exported variables",
    "  unset [name]  - Remove an environment variable",
    "  history       - Show command history",
    "  mkdir [dir]   - Create a directory",
    "  touch [file]  - Create an empty file",
    "  rm [file]     - Remove a file",
    "  tree          - Display directory tree",
    "  vi [file]     - Edit a file (also: vim)",
    "  ps [aux]      - Report process status",
    "  reset -f      - Forget the saved filesystem",
    "",
    "Redirect output with '>' (overwrite) or '>>' (append).",
    "Type any command to try it out!"]

end PocketShell.Command
