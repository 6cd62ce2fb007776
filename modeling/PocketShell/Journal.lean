import PocketShell.Notice
import PocketShell.Text.Split
import PocketShell.Text.Utf8

/-!
# The journal

Notices reach the journal as bytes, in any number of chunks. `Journal.line?` makes of the chunks of
one notice the line that is shown for it, with its level; a notice without a byte is not shown.
-/

namespace PocketShell.Journal

/-- The level and the line of a notice, whose level is `info` where none is given. -/
def line? (level : Option Level) (chunks : List (List UInt8)) : Option (Level × String) :=
  match chunks.flatten with
  | [] => none
  | bytes => some (level.getD .info, Text.trimEnd (Text.Utf8.lossy bytes))

/-- The lines for a sequence of notices. -/
def lines (notices : List (Option Level × List (List UInt8))) : List (List (Level × String)) :=
  notices.map fun notice => (line? notice.1 notice.2).toList

end PocketShell.Journal
