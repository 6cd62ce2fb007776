import PocketShell.Text.Split

/-!
# Keys

The keys that the editor knows, and their notation in text: a character stands for its key, and a
key without a character is named in angle brackets. `Key.ofChars` reads a sequence of keys; brackets
that name no key stand for themselves. `Key.written` writes a key so that it can be read back.
-/

namespace PocketShell

/-- A key. -/
inductive Key where
  /-- A key that types a character. -/
  | char (c : Char)
  | escape
  | enter
  | backspace
  | left
  | right
  | up
  | down
  deriving DecidableEq, Repr

namespace Key

/-- The names of keys, of two letters or more. -/
def names : List (String × Key) :=
  [("Escape", escape), ("Esc", escape),
    ("Enter", enter), ("CR", enter), ("Return", enter),
    ("Backspace", backspace), ("BS", backspace),
    ("ArrowLeft", left), ("Left", left),
    ("ArrowRight", right), ("Right", right),
    ("ArrowUp", up), ("Up", up),
    ("ArrowDown", down), ("Down", down),
    ("lt", char '<'), ("Space", char ' ')]

/-- The key with a name; a single character names its own key. -/
def ofName? (name : String) : Option Key :=
  match name.toList with
  | [c] => some (char c)
  | _ => names.lookup name

/-- The key that a name stands for between brackets; a name of a single byte stands for none. -/
def named? (name : String) : Option Key :=
  if 1 < name.utf8ByteSize then ofName? name else none

/-- The key named at the start of a text that follows an opening bracket, and the text after the
closing bracket. -/
def bracketed? (cs : List Char) : Option (Key × List Char) :=
  match cs.dropWhile (· != '>') with
  | [] => none
  | _ :: rest => (named? (String.ofList (cs.takeWhile (· != '>')))).map fun key => (key, rest)

/-- A key in brackets takes up some of the text, so that what is left gets shorter. -/
theorem length_of_bracketed? {cs rest : List Char} {key : Key}
    (h : bracketed? cs = some (key, rest)) : rest.length < cs.length := by
  have hlength := (List.dropWhile_sublist (l := cs) (· != '>')).length_le
  unfold bracketed? at h
  split at h
  · cases h
  · next hdrop =>
    obtain ⟨_, _, hrest⟩ := Option.map_eq_some_iff.mp h
    cases hrest
    rw [hdrop, List.length_cons] at hlength
    exact hlength

/-- The keys that a text stands for. -/
def ofChars : List Char → List Key
  | [] => []
  | c :: cs =>
    if c = '<' then
      match _h : bracketed? cs with
      | some (key, rest) => key :: ofChars rest
      | none => char c :: ofChars cs
    else char c :: ofChars cs
termination_by cs => cs.length
decreasing_by
  · exact Nat.lt_succ_of_lt (length_of_bracketed? _h)
  · exact Nat.lt_succ_self _
  · exact Nat.lt_succ_self _

/-- The keys that a text stands for. -/
def sequence (text : String) : List Key :=
  ofChars text.toList

/-- The text that stands for a key. -/
def written : Key → String
  | char c => if c = '<' then "<lt>" else c.toString
  | escape => "<Esc>"
  | enter => "<CR>"
  | backspace => "<BS>"
  | left => "<Left>"
  | right => "<Right>"
  | up => "<Up>"
  | down => "<Down>"

end Key

end PocketShell
