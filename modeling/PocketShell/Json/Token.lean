import PocketShell.Json.Quoted

/-!
# Tokens

The tokens of JSON texts that hold objects and strings only. `Token.scan` reads a text from left to
right, outside quotes or inside them, and refuses whatever begins no token. Texts with numbers,
lists or keywords are refused here, so the readers above need not know of them.
-/

namespace PocketShell.Json

/-- A brace, a colon, a comma or a text. -/
inductive Token where
  | openBrace
  | closeBrace
  | colon
  | comma
  | text (value : String)
  deriving DecidableEq, Repr

namespace Token

/-- Where a reader stands; inside quotes with what it has read so far, the latest first. -/
inductive Mode where
  /-- Between tokens. -/
  | outside
  /-- Inside quotes. -/
  | inside (pieces : List Quoted.Piece)
  /-- After a backslash. -/
  | escape (pieces : List Quoted.Piece)
  /-- After `\u`, with `missing` digits to come and the value of those that came. -/
  | digits (pieces : List Quoted.Piece) (missing value : Nat)

/-- The characters that may stand between tokens. -/
def isSpace (c : Char) : Bool :=
  c == ' ' || c == '\t' || c == '\n' || c == '\r'

/-- The token that a single character makes. -/
def ofMark? (c : Char) : Option Token :=
  match c with
  | '\x7b' => some openBrace
  | '\x7d' => some closeBrace
  | ':' => some colon
  | ',' => some comma
  | _ => none

/-- The tokens of a text that is read on from a mode. -/
def scan : Mode → List Char → Option (List Token)
  | .outside, [] => some []
  | .outside, c :: cs =>
    if isSpace c then scan .outside cs
    else if c = '"' then scan (.inside []) cs
    else do
      let token ← ofMark? c
      let tokens ← scan .outside cs
      some (token :: tokens)
  | .inside pieces, c :: cs =>
    if c = '"' then do
      let value ← Quoted.join none pieces.reverse
      let tokens ← scan .outside cs
      some (text (String.ofList value) :: tokens)
    else if c = '\\' then scan (.escape pieces) cs
    else if c < ' ' then none
    else scan (.inside (.char c :: pieces)) cs
  | .escape pieces, c :: cs =>
    if c = 'u' then scan (.digits pieces 4 0) cs
    else
      match Quoted.unescape? c with
      | some d => scan (.inside (.char d :: pieces)) cs
      | none => none
  | .digits pieces missing value, c :: cs =>
    match Quoted.hexValue? c with
    | none => none
    | some digit =>
      if missing ≤ 1 then scan (.inside (.unit (value * 16 + digit) :: pieces)) cs
      else scan (.digits pieces (missing - 1) (value * 16 + digit)) cs
  | .inside _, [] => none
  | .escape _, [] => none
  | .digits .., [] => none

/-- The tokens of a text. -/
def ofText? (text : String) : Option (List Token) :=
  scan .outside text.toList

end Token

/-- The written form of a text. -/
def quote (text : String) : String :=
  String.ofList (Quoted.encode text.toList)

/-- The text with a written form, which may stand between spaces. -/
def unquote? (written : String) : Option String :=
  match Token.ofText? written with
  | some [.text value] => some value
  | _ => none

example : unquote? " \"\\ud83d\\ude00\\u0041\\/\" " = some "😀A/" := by decide +kernel

example : unquote? "\"\\ud83d\"" = none := by decide +kernel

end PocketShell.Json
