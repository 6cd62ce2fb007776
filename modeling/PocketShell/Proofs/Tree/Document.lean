import Mathlib.Logic.Basic
import PocketShell.Proofs.Json.Written
import PocketShell.Text.Split
import PocketShell.Tree.Document

/-!
# Which trees are read back

Every tree can be written, but the reader stops at directories that nest more than
`Node.maxNesting` deep. Main statement: `Node.ofJson?_toJson` says exactly which written trees are
read, and as what.
-/

namespace PocketShell.Node

open Json Json.Token

/-! ## The tokens of a tree -/

mutual

/-- The tokens of a written node. -/
def tokens : Node → List Token
  | file content => [.text content]
  | directory [] => [.openBrace, .closeBrace]
  | directory ((name, node) :: rest) =>
    .openBrace :: .text name :: .colon :: (node.tokens ++ (laterTokens rest ++ [.closeBrace]))

/-- The tokens of the written entries that follow another. -/
def laterTokens : List (String × Node) → List Token
  | [] => []
  | (name, node) :: rest => .comma :: .text name :: .colon :: (node.tokens ++ laterTokens rest)

end

/-- An entry is read as its name, a colon and the tokens of its node. -/
theorem written_member (name : String) {node : Node} (h : Written node.jsonChars node.tokens) :
    Written (Quoted.encode name.toList ++ ':' :: node.jsonChars)
      (.text name :: .colon :: node.tokens) :=
  (written_encode name).append (.append (.mark (c := ':') rfl) h)

mutual

/-- A node is read as its tokens; by induction over the tree, together with its entries. -/
theorem written_jsonChars : ∀ node : Node, Written node.jsonChars node.tokens
  | file content => written_encode content
  | directory [] => .append (.mark (c := '\x7b') rfl) (.mark (c := '\x7d') rfl)
  | directory ((name, node) :: rest) => by
    have hmembers := (written_member name (written_jsonChars node)).append
      ((written_laterChars rest).append (.mark (c := '\x7d') rfl))
    have hopen := Written.append (.mark (c := '\x7b') rfl) hmembers
    simpa [jsonChars, memberChars, tokens, Text.intercalate_cons] using hopen

/-- Entries that follow another are read as their tokens, each behind a comma. -/
theorem written_laterChars : ∀ entries : List (String × Node),
    Written ((memberChars entries).flatMap (',' :: ·)) (laterTokens entries)
  | [] => .nil
  | (name, node) :: rest =>
    .append (.append (.mark (c := ',') rfl) (written_member name (written_jsonChars node)))
      (written_laterChars rest)

end

/-! ## Reading the tokens of a tree -/

/-- A brace opens a directory as long as the limit of nesting allows it. -/
theorem foldlM_step_openBrace {around : List Around} (following : List Token) :
    (openBrace :: following).foldlM Reading.step (.node around) =
      if around.length < maxNesting then following.foldlM Reading.step (.opened around)
      else none := by
  rw [List.foldlM_cons, Reading.step]
  split <;> rfl

/-- A name with a colon begins an entry, whose node is read next. -/
theorem foldlM_step_name {reading : Reading} {earlier : List (String × Node)} {name : String}
    {around : List Around} (h : reading.step (.text name) = some (.named earlier name around))
    (following : List Token) :
    (text name :: colon :: following).foldlM Reading.step reading =
      following.foldlM Reading.step (.node (⟨earlier, name⟩ :: around)) := by
  rw [List.foldlM_cons, h]
  rfl

mutual

/-- Reading goes on after a node, unless its directories nest too deep inside those under way. -/
theorem foldlM_step_tokens : ∀ (node : Node) (around : List Around) (following : List Token),
    around.length ≤ maxNesting →
    (node.tokens ++ following).foldlM Reading.step (.node around) =
      if around.length + node.depth ≤ maxNesting then
        following.foldlM Reading.step (.after node around)
      else none
  | file content, around, following, h => by
    rw [depth, Nat.add_zero, if_pos h]
    rfl
  | directory [], around, following, _ => by
    rw [tokens, List.cons_append, foldlM_step_openBrace]
    exact if_congr (by simp only [depth, entriesDepth]; omega) rfl rfl
  | directory ((name, node) :: rest), around, following, _ => by
    rw [tokens, List.cons_append, foldlM_step_openBrace]
    by_cases hopen : around.length < maxNesting
    · have hnode := foldlM_step_tokens node (⟨[], name⟩ :: around)
        (laterTokens rest ++ closeBrace :: following) hopen
      have hrest := foldlM_step_laterTokens rest [(name, node)] around following hopen
      -- The first entry and the others are within bounds exactly if the directory is.
      rw [if_pos hopen, List.cons_append, List.cons_append, foldlM_step_name rfl,
        List.append_assoc, List.append_assoc, List.singleton_append, hnode, Reading.after, hrest,
        ← ite_and]
      exact if_congr (by simp only [depth, entriesDepth, List.length_cons]; omega) rfl rfl
    · rw [if_neg hopen, if_neg (by simp only [depth]; omega)]

/-- The tokens of entries and a closing brace are read as these entries behind the earlier ones, if
none nests too deep; otherwise nothing is read. -/
theorem foldlM_step_laterTokens : ∀ (entries earlier : List (String × Node))
    (around : List Around) (following : List Token),
    around.length < maxNesting →
    (laterTokens entries ++ closeBrace :: following).foldlM Reading.step (.entry earlier around) =
      if around.length + 1 + entriesDepth entries ≤ maxNesting then
        following.foldlM Reading.step (.after (directory (earlier.reverse ++ entries)) around)
      else none
  | [], earlier, around, following, h => by
    rw [entriesDepth, if_pos (by omega), List.append_nil]
    rfl
  | (name, node) :: rest, earlier, around, following, h => by
    have hnode := foldlM_step_tokens node (⟨earlier, name⟩ :: around)
      (laterTokens rest ++ closeBrace :: following) h
    have hrest := foldlM_step_laterTokens rest ((name, node) :: earlier) around following h
    rw [laterTokens, List.cons_append, List.foldlM_cons]
    change List.foldlM Reading.step (.next earlier around) _ = _
    rw [List.cons_append, List.cons_append, foldlM_step_name rfl, List.append_assoc, hnode,
      Reading.after, hrest, ← ite_and, List.reverse_cons, List.append_assoc]
    exact if_congr (by simp only [entriesDepth, List.length_cons]; omega) rfl rfl

end

/-- **Which trees are read back**: those whose directories nest no deeper than the reader goes. -/
theorem ofJson?_toJson (node : Node) :
    ofJson? node.toJson = if node.depth ≤ maxNesting then some node.tidy else none := by
  have hread := foldlM_step_tokens node [] [] (Nat.zero_le _)
  rw [List.append_nil, List.length_nil, Nat.zero_add] at hread
  rw [ofJson?, toJson, (written_jsonChars node).ofText?, Option.bind_some, ofTokens?, hread]
  by_cases hdepth : node.depth ≤ maxNesting
  · rw [if_pos hdepth, if_pos hdepth]
    rfl
  · rw [if_neg hdepth, if_neg hdepth]

end PocketShell.Node
