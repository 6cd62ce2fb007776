/-!
# Reading bytes as UTF-8

`scan` reads a sequence of bytes from left to right and answers, in order, the characters that it
encodes and a `none` for each flaw: a byte that can start nothing, or the longest beginning of a
sequence that does not go on as it must. `lossy` shows a flaw as the replacement character, and
`decode?` refuses bytes with a flaw.
-/

namespace PocketShell.Text.Utf8

/-- A sequence under way: the number of bytes still missing, the bounds of the next one, and the
bits gathered so far. -/
structure Pending where
  missing : Nat
  low : Nat
  high : Nat
  bits : Nat

/-- What a byte that starts a sequence yields at once, and the sequence it leaves under way. The
bounds of the second byte keep out overlong forms, surrogates and what lies above the last code
point. -/
def start (byte : Nat) : List (Option Char) × Option Pending :=
  if byte < 0x80 then ([some (Char.ofNat byte)], none)
  else if 0xC2 ≤ byte ∧ byte ≤ 0xDF then ([], some ⟨1, 0x80, 0xBF, byte - 0xC0⟩)
  else if byte = 0xE0 then ([], some ⟨2, 0xA0, 0xBF, 0⟩)
  else if byte = 0xED then ([], some ⟨2, 0x80, 0x9F, 0xD⟩)
  else if 0xE1 ≤ byte ∧ byte ≤ 0xEF then ([], some ⟨2, 0x80, 0xBF, byte - 0xE0⟩)
  else if byte = 0xF0 then ([], some ⟨3, 0x90, 0xBF, 0⟩)
  else if 0xF1 ≤ byte ∧ byte ≤ 0xF3 then ([], some ⟨3, 0x80, 0xBF, byte - 0xF0⟩)
  else if byte = 0xF4 then ([], some ⟨3, 0x80, 0x8F, 4⟩)
  else ([none], none)

/-- What the next byte yields: it continues the sequence under way, or ends it in a flaw and starts
anew. -/
def advance : Option Pending → Nat → List (Option Char) × Option Pending
  | none, byte => start byte
  | some pending, byte =>
    if pending.low ≤ byte ∧ byte ≤ pending.high then
      let bits := pending.bits * 64 + (byte - 0x80)
      if pending.missing ≤ 1 then ([some (Char.ofNat bits)], none)
      else ([], some ⟨pending.missing - 1, 0x80, 0xBF, bits⟩)
    else (none :: (start byte).1, (start byte).2)

/-- The characters and flaws of a sequence of bytes, after a sequence that may be under way. -/
def scan : Option Pending → List UInt8 → List (Option Char)
  | none, [] => []
  | some _, [] => [none]
  | pending, byte :: bytes =>
    (advance pending byte.toNat).1 ++ scan (advance pending byte.toNat).2 bytes

/-- The text of a sequence of bytes, with U+FFFD for each flaw. -/
def lossy (bytes : List UInt8) : String :=
  String.ofList ((scan none bytes).map (·.getD '\uFFFD'))

/-- The text that a sequence of bytes encodes, if it has no flaw. -/
def decode? (bytes : List UInt8) : Option String :=
  ((scan none bytes).mapM id).map String.ofList

/-- A four-byte character, a flaw of three bytes that the next byte breaks off, and a stray one. -/
example : scan none [0xF0, 0x9F, 0x98, 0x80, 0xF0, 0x9F, 0x98, 0x41, 0xFF] =
    [some '😀', none, some 'A', none] := by decide

end PocketShell.Text.Utf8
