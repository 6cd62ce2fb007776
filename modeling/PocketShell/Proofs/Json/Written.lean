import PocketShell.Json.Token

/-!
# What is written is read back

The tokens of written text. `Token.Written` relates characters to the tokens that they are read as,
whatever follows them; it holds of marks and of quoted texts, and is kept when pieces are put
together. Main statements: `Token.written_encode`, a text is read back from its quoted form, and
`unquote?_quote`.
-/

namespace PocketShell.Json

namespace Quoted

/-- A hexadecimal digit is read as the value it was written for. -/
theorem hexValue?_hexDigit : ∀ value < 16, hexValue? (hexDigit value) = some value := by
  decide +kernel

/-- A character is written as a letter after a backslash, by its digits, or as it is. -/
theorem encodeChar_cases (c : Char) :
    (∃ d, unescape? d = some c ∧ encodeChar c = ['\\', d]) ∨
    (c < ' ' ∧ encodeChar c =
      ['\\', 'u', '0', '0', hexDigit (c.toNat / 16), hexDigit (c.toNat % 16)]) ∨
    (c ≠ '"' ∧ c ≠ '\\' ∧ ¬ c < ' ' ∧ encodeChar c = [c]) := by
  by_cases hletter : c ∈ ['"', '\\', '\n', '\r', '\t', '\x08', '\x0c']
  · simp only [List.mem_cons, List.not_mem_nil, or_false] at hletter
    rcases hletter with rfl | rfl | rfl | rfl | rfl | rfl | rfl <;> exact .inl ⟨_, rfl, rfl⟩
  · simp only [List.mem_cons, List.not_mem_nil, or_false, not_or] at hletter
    obtain ⟨hquote, hescape, hfeed, hreturn, htab, hback, hform⟩ := hletter
    have hencode : encodeChar c = if c < ' ' then
        ['\\', 'u', '0', '0', hexDigit (c.toNat / 16), hexDigit (c.toNat % 16)] else [c] := by
      simp only [encodeChar, hquote, hescape, hfeed, hreturn, htab, hback, hform, if_false]
    by_cases hspace : c < ' '
    · rw [if_pos hspace] at hencode
      exact .inr (.inl ⟨hspace, hencode⟩)
    · rw [if_neg hspace] at hencode
      exact .inr (.inr ⟨hquote, hescape, hspace, hencode⟩)

/-- A character that is written as it is stands for itself. -/
theorem join_char (c : Char) (pieces : List Piece) :
    join none (.char c :: pieces) = (join none pieces).map (c :: ·) := by
  rw [join]

/-- A control character that is written as four digits stands for itself: its code is no half of a
surrogate pair. -/
theorem join_unit {c : Char} (h : c < ' ') (pieces : List Piece) :
    join none (.unit c.toNat :: pieces) = (join none pieces).map (c :: ·) := by
  have hc : c.toNat < 32 := h
  have hleading : isLeading c.toNat = false := by simp [isLeading]; omega
  have htrailing : isTrailing c.toNat = false := by simp [isTrailing]; omega
  simp [join, hleading, htrailing, Char.ofNat_toNat]

end Quoted

namespace Token

open Quoted

/-! ## Inside quotes -/

/-- A short escape within quotes is read as the character it stands for. -/
theorem scan_inside_escape {c d : Char} (h : unescape? c = some d) (pieces : List Piece)
    (rest : List Char) :
    scan (.inside pieces) ('\\' :: c :: rest) = scan (.inside (.char d :: pieces)) rest := by
  have hc : c ≠ 'u' := by rintro rfl; cases h
  simp [scan, hc, h]

/-- A control character written as four digits is read as its code. -/
theorem scan_inside_digits {c : Char} (h : c < ' ') (pieces : List Piece) (rest : List Char) :
    scan (.inside pieces) ('\\' :: 'u' :: '0' :: '0' :: hexDigit (c.toNat / 16) ::
      hexDigit (c.toNat % 16) :: rest) = scan (.inside (.unit c.toNat :: pieces)) rest := by
  have hc : c.toNat < 32 := h
  have hzero : hexValue? '0' = some 0 := by decide
  have hhigh : hexValue? (hexDigit (c.toNat / 16)) = some (c.toNat / 16) :=
    hexValue?_hexDigit _ (by omega)
  have hlow : hexValue? (hexDigit (c.toNat % 16)) = some (c.toNat % 16) :=
    hexValue?_hexDigit _ (by omega)
  have hvalue : c.toNat / 16 * 16 + c.toNat % 16 = c.toNat := Nat.div_add_mod' _ _
  simp [scan, hzero, hhigh, hlow, hvalue]

/-- A character that needs no escape is read as it is within quotes. -/
theorem scan_inside_plain {c : Char} (hquote : c ≠ '"') (hescape : c ≠ '\\') (hspace : ¬ c < ' ')
    (pieces : List Piece) (rest : List Char) :
    scan (.inside pieces) (c :: rest) = scan (.inside (.char c :: pieces)) rest := by
  simp [scan, hquote, hescape, hspace]

/-- A written character is read as one piece that stands for it. -/
theorem exists_scan_encodeChar (c : Char) : ∃ piece,
    (∀ pieces, join none (piece :: pieces) = (join none pieces).map (c :: ·)) ∧
    ∀ pieces rest, scan (.inside pieces) (encodeChar c ++ rest) =
      scan (.inside (piece :: pieces)) rest := by
  rcases encodeChar_cases c with ⟨d, hd, hencode⟩ | ⟨hspace, hencode⟩ |
    ⟨hquote, hescape, hspace, hencode⟩
  · rw [hencode]
    exact ⟨.char c, join_char c, scan_inside_escape hd⟩
  · rw [hencode]
    exact ⟨.unit c.toNat, join_unit hspace, scan_inside_digits hspace⟩
  · rw [hencode]
    exact ⟨.char c, join_char c, scan_inside_plain hquote hescape hspace⟩

/-- Characters that are written within quotes are read, whatever is read before and follows, as
pieces that join to these characters. -/
theorem exists_scan_flatMap_encodeChar (cs : List Char) : ∃ read, join none read = some cs ∧
    ∀ pieces rest, scan (.inside pieces) (cs.flatMap encodeChar ++ rest) =
      scan (.inside (read.reverse ++ pieces)) rest := by
  induction cs with
  | nil => exact ⟨[], rfl, fun _ _ => rfl⟩
  | cons c cs ih =>
    obtain ⟨piece, hjoin, hpiece⟩ := exists_scan_encodeChar c
    obtain ⟨read, hread, hscan⟩ := ih
    refine ⟨piece :: read, by rw [hjoin, hread, Option.map_some], fun pieces rest => ?_⟩
    rw [List.flatMap_cons, List.append_assoc, hpiece, hscan, List.reverse_cons, List.append_assoc,
      List.singleton_append]

/-! ## Between tokens -/

/-- The characters are read as the tokens, whatever follows. -/
def Written (chars : List Char) (tokens : List Token) : Prop :=
  ∀ rest, scan .outside (chars ++ rest) = (scan .outside rest).map (tokens ++ ·)

/-- No character is read as no token. -/
theorem Written.nil : Written [] [] := fun rest => by simp

/-- Texts one after the other are read as their tokens one after the other. -/
theorem Written.append {first second : List Char} {tokens tokens' : List Token}
    (hfirst : Written first tokens) (hsecond : Written second tokens') :
    Written (first ++ second) (tokens ++ tokens') := by
  intro rest
  rw [List.append_assoc, hfirst, hsecond, Option.map_map]
  simp [Function.comp_def]

/-- A mark is read as its token. -/
theorem Written.mark {c : Char} {token : Token} (h : ofMark? c = some token) :
    Written [c] [token] := by
  intro rest
  have hspace : isSpace c = false := by
    simp only [isSpace, Bool.or_eq_false_iff, beq_eq_false_iff_ne]
    refine ⟨⟨⟨?_, ?_⟩, ?_⟩, ?_⟩ <;> rintro rfl <;> cases h
  have hquote : c ≠ '"' := by rintro rfl; cases h
  simp only [List.singleton_append, scan, hspace, hquote, h, if_false, Bool.false_eq_true]
  cases scan .outside rest <;> rfl

/-- A text is read back from its quoted form. -/
theorem written_encode (text : String) : Written (encode text.toList) [.text text] := by
  intro rest
  obtain ⟨read, hread, hscan⟩ := exists_scan_flatMap_encodeChar text.toList
  have hopen : scan .outside (encode text.toList ++ rest) =
      scan (.inside []) (text.toList.flatMap encodeChar ++ ('"' :: rest)) := by
    have hspace : isSpace '"' = false := by decide
    simp [encode, scan, hspace]
  rw [hopen, hscan, List.append_nil, scan, if_pos rfl, List.reverse_reverse, hread,
    Option.bind_eq_bind, Option.bind_some, String.ofList_toList]
  cases scan .outside rest <;> rfl

/-- A text that is read as some tokens, whatever follows, is read as these tokens on its own. -/
theorem Written.ofText? {chars : List Char} {tokens : List Token} (h : Written chars tokens) :
    Token.ofText? (String.ofList chars) = some tokens := by
  have := h []
  rw [List.append_nil] at this
  rw [Token.ofText?, String.toList_ofList, this, scan, Option.map_some, List.append_nil]

end Token

/-- A text is read back from its written form. -/
theorem unquote?_quote (text : String) : unquote? (quote text) = some text := by
  rw [unquote?, quote, (Token.written_encode text).ofText?]

end PocketShell.Json
