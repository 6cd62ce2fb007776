/-!
# Columns

Texts brought to a width by blanks, and numbers in decimal form. A text that is wider already stays
as it is.
-/

namespace PocketShell.Text

/-- The text with blanks after it, up to a width. -/
def padEnd (width : Nat) (s : String) : String :=
  String.ofList (s.toList.rightpad width ' ')

/-- The text with blanks before it, up to a width. -/
def padStart (width : Nat) (s : String) : String :=
  String.ofList (s.toList.leftpad width ' ')

/-- The decimal form of a number. -/
def decimal (n : Nat) : String :=
  String.ofList (Nat.toDigits 10 n)

/-- The decimal form of a number, with zeros before it up to a width. -/
def decimalPadded (width n : Nat) : String :=
  String.ofList ((Nat.toDigits 10 n).leftpad width '0')

end PocketShell.Text
