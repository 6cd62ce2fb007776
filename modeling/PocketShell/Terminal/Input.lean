import PocketShell.Text.Utf8

/-!
# Lines of input

What arrives at the terminal: lines, and in the end nothing more. A line ends with a line feed, or a
carriage return and a line feed; the last one may lack them. A line must be UTF-8.
-/

namespace PocketShell

/-- What arrives at the terminal. -/
inductive Input where
  | line (text : String)
  /-- A line that is not UTF-8. -/
  | invalid
  /-- The end of the input. -/
  | ended
  deriving DecidableEq, Repr

namespace Input

/-- The bytes of a line without its end. -/
def withoutEnd (line : List UInt8) : List UInt8 :=
  match line.reverse with
  | 0x0A :: 0x0D :: rest => rest.reverse
  | 0x0A :: rest => rest.reverse
  | _ => line

/-- What the bytes up to a line feed are; no bytes are the end of the input. -/
def ofBytes (line : List UInt8) : Input :=
  if line.isEmpty then ended
  else
    match Text.Utf8.decode? (withoutEnd line) with
    | some text => .line text
    | none => invalid

/-- The lines of some bytes, each with its end. -/
def cutLines : List UInt8 → List (List UInt8)
  | [] => []
  | byte :: bytes =>
    if byte = 0x0A then [byte] :: cutLines bytes
    else
      match cutLines bytes with
      | [] => [[byte]]
      | next :: others => (byte :: next) :: others

/-- What arrives if the input has some bytes, up to its end. -/
def all (bytes : List UInt8) : List Input :=
  (cutLines bytes).map ofBytes ++ [ended]

end Input

end PocketShell
