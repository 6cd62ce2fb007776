import PocketShell.Text.Blank

/-!
# Words, pieces and ends

Cutting text: at every blank (`wordLists`), at every mark (`pieces`), at its first or last
occurrence (`cutFirst?`, `cutLast`), and off the ends (`dropBlank`, `after?`). The work is done on
lists of characters; the functions on `String` only convert. Main statements: `after?_eq_some_iff`
and `append_of_cutLast`, the pieces of a cut and the mark make up the text again.
-/

namespace PocketShell.Text

/-! ## The ends of a text -/

/-- The characters from the first that is not blank. -/
def dropBlank (cs : List Char) : List Char :=
  cs.dropWhile isBlank

/-- The characters up to the last that is not blank. -/
def dropBlankEnd (cs : List Char) : List Char :=
  (dropBlank cs.reverse).reverse

/-- The text without trailing blanks. -/
def trimEnd (s : String) : String :=
  String.ofList (dropBlankEnd s.toList)

/-- The text has blanks only, if anything. -/
def isAllBlank (s : String) : Bool :=
  s.toList.all isBlank

/-- The text without any run of `c` at either end. -/
def trimAll (c : Char) (s : String) : String :=
  String.ofList ((s.toList.dropWhile (· == c)).reverse.dropWhile (· == c)).reverse

/-- The characters after `mark`, if it is what they begin with. -/
def after? (mark cs : List Char) : Option (List Char) :=
  if mark.isPrefixOf cs then some (cs.drop mark.length) else none

/-- The characters before `mark`, if it is what they end with. -/
def before? (mark cs : List Char) : Option (List Char) :=
  if mark.isSuffixOf cs then some (cs.take (cs.length - mark.length)) else none

/-- What follows `opening` at the start of a text. -/
def dropOpening? (opening s : String) : Option String :=
  (after? opening.toList s.toList).map String.ofList

/-- What precedes `ending` at the end of a text. -/
def dropEnding? (ending s : String) : Option String :=
  (before? ending.toList s.toList).map String.ofList

/-- The text begins with `opening`. -/
def beginsWith (opening s : String) : Bool :=
  opening.toList.isPrefixOf s.toList

/-- The text ends with `ending`. -/
def endsWith (ending s : String) : Bool :=
  ending.toList.isSuffixOf s.toList

/-- What is left after a mark is what has to be put after it. -/
theorem after?_eq_some_iff {mark cs rest : List Char} :
    after? mark cs = some rest ↔ cs = mark ++ rest := by
  unfold after?
  split
  · next h =>
    obtain ⟨t, rfl⟩ := List.isPrefixOf_iff_prefix.mp h
    simp
  · next h =>
    have hnot : ¬ mark <+: cs := fun hmark => h (List.isPrefixOf_iff_prefix.mpr hmark)
    exact ⟨nofun, fun hcs => absurd ⟨rest, hcs.symm⟩ hnot⟩

/-- What is left before a mark is what has to be put before it. -/
theorem before?_eq_some_iff {mark cs front : List Char} :
    before? mark cs = some front ↔ cs = front ++ mark := by
  unfold before?
  split
  · next h =>
    obtain ⟨t, rfl⟩ := List.isSuffixOf_iff_suffix.mp h
    simp
  · next h =>
    have hnot : ¬ mark <:+ cs := fun hmark => h (List.isSuffixOf_iff_suffix.mpr hmark)
    exact ⟨nofun, fun hcs => absurd ⟨front, hcs.symm⟩ hnot⟩

/-- An ending can be taken off exactly where it is one. -/
theorem isSome_dropEnding? (ending s : String) :
    (dropEnding? ending s).isSome = endsWith ending s := by
  rw [dropEnding?, before?, endsWith, Option.isSome_map]
  split
  · next h => rw [h, Option.isSome_some]
  · next h => rw [Bool.eq_false_iff.mpr h, Option.isSome_none]

/-! ## Pieces -/

/-- The maximal runs of characters that are not blank. -/
def wordLists (cs : List Char) : List (List Char) :=
  (cs.splitOnP isBlank).filter (!·.isEmpty)

/-- The pieces of a text between the occurrences of `mark`; a text without it is one piece. -/
def pieces (mark : Char) (s : String) : List String :=
  (s.toList.splitOn mark).map String.ofList

/-- Pieces hold none of the characters that part them. -/
theorem forall_of_mem_splitOnP {p : Char → Bool} {cs piece : List Char}
    (h : piece ∈ cs.splitOnP p) : ∀ c ∈ piece, p c = false := by
  induction cs generalizing piece with
  | nil =>
    rw [List.splitOnP_nil, List.mem_singleton] at h
    simp [h]
  | cons first cs ih =>
    obtain ⟨head, tail, hsplit⟩ := List.exists_cons_of_ne_nil (List.splitOnP_ne_nil p cs)
    rw [List.splitOnP_cons_eq_if_modifyHead, hsplit] at h
    split at h
    · rcases List.mem_cons.mp h with rfl | h
      · simp
      · exact ih (hsplit ▸ h)
    · next hfirst =>
      rcases List.mem_cons.mp h with rfl | h
      · have hhead := ih (hsplit ▸ List.mem_cons_self)
        simpa [hfirst] using hhead
      · exact ih (hsplit ▸ List.mem_cons_of_mem _ h)

/-- No piece holds the mark that parts it from the others. -/
theorem not_mem_of_mem_pieces {mark : Char} {s piece : String} (h : piece ∈ pieces mark s) :
    mark ∉ piece.toList := by
  obtain ⟨cs, hcs, rfl⟩ := List.mem_map.mp h
  rw [List.splitOn_eq_splitOnP] at hcs
  rw [String.toList_ofList]
  exact fun hmark => by simpa using forall_of_mem_splitOnP hcs mark hmark

/-- The pieces of two texts with a mark between them are those of the one and then those of the
other. -/
theorem pieces_append (mark : Char) (first rest : String) :
    pieces mark (first ++ String.ofList [mark] ++ rest) =
      pieces mark first ++ pieces mark rest := by
  have htoList : (first ++ String.ofList [mark] ++ rest).toList =
      first.toList ++ mark :: rest.toList := by simp
  rw [pieces, htoList, List.splitOn_append_cons_self, List.map_append, pieces, pieces]

/-- The pieces of a text, joined again, make up the text. -/
theorem intercalate_pieces (mark : Char) (s : String) :
    (String.ofList [mark]).intercalate (pieces mark s) = s := by
  rw [← String.toList_inj, String.toList_intercalate, pieces, List.map_map]
  simp [Function.comp_def, List.intercalate_splitOn]

/-- Lists joined by a mark: it stands before each but the first. -/
theorem intercalate_cons (mark first : List Char) (rest : List (List Char)) :
    mark.intercalate (first :: rest) = first ++ rest.flatMap (mark ++ ·) := by
  induction rest generalizing first with
  | nil => simp [List.intercalate_singleton]
  | cons second rest ih => simp [List.intercalate_cons_cons, ih]

/-- The text before the first `mark` and the text after it. -/
def cutFirst? (mark : Char) (s : String) : Option (String × String) :=
  match s.toList.dropWhile (· != mark) with
  | [] => none
  | _ :: after => some (String.ofList (s.toList.takeWhile (· != mark)), String.ofList after)

/-- The characters before the last occurrence of `mark` and those after it; occurrences may
overlap. -/
def cutLast (mark : List Char) : List Char → Option (List Char × List Char)
  | [] => none
  | c :: cs =>
    match cutLast mark cs with
    | some (before, after) => some (c :: before, after)
    | none => (after? mark (c :: cs)).map fun after => ([], after)

/-- The two pieces of a cut and the mark between them make up the text. -/
theorem append_of_cutLast {mark cs before after : List Char}
    (h : cutLast mark cs = some (before, after)) : before ++ mark ++ after = cs := by
  induction cs generalizing before after with
  | nil => simp [cutLast] at h
  | cons c cs ih =>
    rw [cutLast] at h
    split at h
    · next b a hrest =>
      cases h
      simpa using ih hrest
    · simp only [Option.map_eq_some_iff, Prod.mk.injEq] at h
      obtain ⟨rest, hrest, rfl, rfl⟩ := h
      simpa using (after?_eq_some_iff.mp hrest).symm

end PocketShell.Text
