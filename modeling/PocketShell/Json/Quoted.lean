import PocketShell.Text.Blank

/-!
# Quoted text

The written form of a text in JSON. `encode` writes a quote, a backslash and the characters below
the space as escapes and all other characters as they are. A reader meets plain characters and
`\uXXXX` escapes, each one unit of sixteen bits; `join` makes characters of them, two units that
form a surrogate pair becoming one character, and refuses a surrogate that stands alone.
-/

namespace PocketShell.Json.Quoted

/-- The hexadecimal digit with a value below sixteen. -/
def hexDigit (value : Nat) : Char :=
  if value < 10 then Char.ofNat ('0'.toNat + value) else Char.ofNat ('a'.toNat + (value - 10))

/-- The value of a hexadecimal digit, in either case. -/
def hexValue? (c : Char) : Option Nat :=
  if '0' ≤ c ∧ c ≤ '9' then some (c.toNat - '0'.toNat)
  else if 'a' ≤ c ∧ c ≤ 'f' then some (c.toNat - 'a'.toNat + 10)
  else if 'A' ≤ c ∧ c ≤ 'F' then some (c.toNat - 'A'.toNat + 10)
  else none

/-- The written form of one character inside quotes. -/
def encodeChar (c : Char) : List Char :=
  if c = '"' then ['\\', '"']
  else if c = '\\' then ['\\', '\\']
  else if c = '\n' then ['\\', 'n']
  else if c = '\r' then ['\\', 'r']
  else if c = '\t' then ['\\', 't']
  else if c = '\x08' then ['\\', 'b']
  else if c = '\x0c' then ['\\', 'f']
  else if c < ' ' then ['\\', 'u', '0', '0', hexDigit (c.toNat / 16), hexDigit (c.toNat % 16)]
  else [c]

/-- The written form of a text, with its quotes. -/
def encode (cs : List Char) : List Char :=
  '"' :: (cs.flatMap encodeChar ++ ['"'])

/-- What stands inside quotes: a character, or the value of a `\uXXXX` escape. -/
inductive Piece where
  | char (c : Char)
  | unit (value : Nat)

/-- The character of a one-letter escape. -/
def unescape? (c : Char) : Option Char :=
  match c with
  | '"' => some '"'
  | '\\' => some '\\'
  | '/' => some '/'
  | 'b' => some '\x08'
  | 'f' => some '\x0c'
  | 'n' => some '\n'
  | 'r' => some '\r'
  | 't' => some '\t'
  | _ => none

/-- A unit that begins a surrogate pair. -/
def isLeading (value : Nat) : Bool :=
  0xD800 ≤ value && value ≤ 0xDBFF

/-- A unit that ends a surrogate pair. -/
def isTrailing (value : Nat) : Bool :=
  0xDC00 ≤ value && value ≤ 0xDFFF

/-- The character that a surrogate pair stands for. -/
def pairChar (leading trailing : Nat) : Char :=
  Char.ofNat (0x10000 + (leading - 0xD800) * 0x400 + (trailing - 0xDC00))

/-- The characters that the pieces stand for, after a leading surrogate that may be under way. -/
def join : Option Nat → List Piece → Option (List Char)
  | none, [] => some []
  | some _, [] => none
  | none, .char c :: pieces => (join none pieces).map (c :: ·)
  | some _, .char _ :: _ => none
  | none, .unit value :: pieces =>
    if isLeading value then join (some value) pieces
    else if isTrailing value then none
    else (join none pieces).map (Char.ofNat value :: ·)
  | some leading, .unit value :: pieces =>
    if isTrailing value then (join none pieces).map (pairChar leading value :: ·) else none

end PocketShell.Json.Quoted
