/-!
# Blank and control characters

`isBlank` is the class of characters that separate words on a command line, `isControl` the class
that the editor does not take as text. Both are properties of code points and are given as tables
of ranges. Main statement: `isBlank_of_isWhitespace`, every ASCII white-space character is blank.
-/

namespace PocketShell.Text

/-- The code points with the Unicode property `White_Space`, as closed ranges. -/
def blankRanges : List (Nat × Nat) :=
  [(0x09, 0x0D), (0x20, 0x20), (0x85, 0x85), (0xA0, 0xA0), (0x1680, 0x1680), (0x2000, 0x200A),
    (0x2028, 0x2029), (0x202F, 0x202F), (0x205F, 0x205F), (0x3000, 0x3000)]

/-- The code points of the Unicode general category `Cc`, as closed ranges. -/
def controlRanges : List (Nat × Nat) :=
  [(0x00, 0x1F), (0x7F, 0x9F)]

/-- The character lies in one of the ranges. -/
def inRanges (ranges : List (Nat × Nat)) (c : Char) : Bool :=
  ranges.any fun range => range.1 ≤ c.toNat && c.toNat ≤ range.2

/-- A character that separates words. -/
def isBlank (c : Char) : Bool :=
  inRanges blankRanges c

/-- A control character. -/
def isControl (c : Char) : Bool :=
  inRanges controlRanges c

/-- There are twenty-five blank characters. -/
example : (blankRanges.map fun range => range.2 + 1 - range.1).sum = 25 := rfl

/-- What is white space in ASCII is blank. -/
theorem isBlank_of_isWhitespace {c : Char} (h : c.isWhitespace) : isBlank c := by
  simp only [Char.isWhitespace, Bool.or_eq_true, decide_eq_true_eq] at h
  rcases h with ((h | h) | h) | h <;> subst h <;> decide

end PocketShell.Text
