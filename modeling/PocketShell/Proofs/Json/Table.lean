import PocketShell.Json.Table
import PocketShell.Proofs.Json.Written
import PocketShell.Text.Split

/-!
# Tables are read back

Whatever the members of a table are, they are read back from its written form, in order. Main
statement: `Table.read?_write`.
-/

namespace PocketShell.Json

/-- Nothing is read of a character that may stand between tokens. -/
theorem Token.Written.space {c : Char} (h : isSpace c) : Written [c] [] := by
  intro rest
  simp [scan, h]

namespace Table

open Token

/-! ## The tokens of a table -/

/-- The tokens of a member. -/
def memberTokens (member : String × String) : List Token :=
  [text member.1, colon, text member.2]

/-- The tokens of the members that follow another. -/
def laterTokens (members : List (String × String)) : List Token :=
  members.flatMap (comma :: memberTokens ·)

/-- A line of the table is read as a name, a colon and a text; the indentation is no token. -/
theorem written_memberLine (member : String × String) :
    Written (memberLine member).toList (memberTokens member) := by
  have hindent : Written [' ', ' '] [] := .append (.space (c := ' ') rfl) (.space (c := ' ') rfl)
  have hcolon : Written [':', ' '] [colon] := .append (.mark (c := ':') rfl) (.space (c := ' ') rfl)
  have hmember := ((hindent.append (written_encode member.1)).append hcolon).append
    (written_encode member.2)
  simpa [memberLine, memberTokens, quote] using hmember

/-- The lines after the first are read as their members, each behind a comma. -/
theorem written_laterLines (members : List (String × String)) :
    Written (members.flatMap fun member => ",\n".toList ++ (memberLine member).toList)
      (laterTokens members) := by
  induction members with
  | nil => exact .nil
  | cons member rest ih =>
    have hcomma : Written [',', '\n'] [comma] :=
      .append (.mark (c := ',') rfl) (.space (c := '\n') rfl)
    exact (hcomma.append (written_memberLine member)).append ih

/-- A table with a member is read as its members between braces, with commas between them. -/
theorem written_write (member : String × String) (rest : List (String × String)) :
    Written (write (member :: rest)).toList
      (openBrace :: (memberTokens member ++ (laterTokens rest ++ [closeBrace]))) := by
  have hopen : Written ['\x7b', '\n'] [openBrace] :=
    .append (.mark (c := '\x7b') rfl) (.space (c := '\n') rfl)
  have hclose : Written ['\n', '\x7d'] [closeBrace] :=
    .append (.space (c := '\n') rfl) (.mark (c := '\x7d') rfl)
  have hmembers := (written_memberLine member).append ((written_laterLines rest).append hclose)
  have hlines : (write (member :: rest)).toList = ['\x7b', '\n'] ++ ((memberLine member).toList ++
      (rest.flatMap (fun member => ",\n".toList ++ (memberLine member).toList) ++
        ['\n', '\x7d'])) := by
    simp [write, Text.intercalate_cons, List.flatMap_map]
  rw [hlines]
  exact hopen.append hmembers

/-! ## Reading the tokens of a table -/

/-- The tokens of some members are taken as these members. -/
theorem members?_tokens (member : String × String) (rest : List (String × String)) :
    members? (memberTokens member ++ (laterTokens rest ++ [closeBrace])) =
      some (member :: rest) := by
  induction rest generalizing member with
  | nil => rfl
  | cons next rest ih =>
    change (members? (memberTokens next ++ laterTokens rest ++ [closeBrace])).map (member :: ·) = _
    rw [List.append_assoc, ih, Option.map_some]

/-- **Tables are read back from their written form.** -/
theorem read?_write (members : List (String × String)) : read? (write members) = some members := by
  cases members with
  | nil => decide
  | cons member rest =>
    have htokens := (written_write member rest).ofText?
    rw [String.ofList_toList] at htokens
    rw [read?, htokens]
    exact members?_tokens member rest

end Table

end PocketShell.Json
