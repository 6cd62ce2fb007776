import Mathlib.Data.List.DropRight
import Mathlib.Data.List.Infix
import PocketShell.Text.Split

/-!
# What cutting yields

The laws of the ways to cut a text: its words are not empty, hold no blanks and stand in it
(`Text.mem_wordLists`), and words with blanks before them are read back (`Text.wordLists_flatMap`);
what is left without the blanks around it has none at its ends (`Text.isTrimmed_trim`); and a text
is cut at the last occurrence of a mark, if there is one (`Text.cutLast_eq_some_iff`,
`Text.cutLast_eq_none_iff`).
-/

namespace PocketShell.Text

variable {cs : List Char}

/-- A text begins with another if that is a prefix of it. -/
theorem beginsWith_iff {opening s : String} :
    beginsWith opening s ↔ opening.toList <+: s.toList :=
  List.isPrefixOf_iff_prefix

/-- A text begins with another if it is that one with a rest. -/
theorem beginsWith_iff_exists {opening s : String} :
    beginsWith opening s ↔ ∃ rest, s = opening ++ rest := by
  rw [beginsWith_iff]
  constructor
  · rintro ⟨rest, hrest⟩
    exact ⟨String.ofList rest, by rw [← String.toList_inj, ← hrest]; simp⟩
  · rintro ⟨rest, rfl⟩
    rw [String.toList_append]
    exact List.prefix_append _ _

/-- To drop an opening leaves the rest behind it. -/
theorem dropOpening?_eq_some_iff {opening s rest : String} :
    dropOpening? opening s = some rest ↔ s = opening ++ rest := by
  rw [dropOpening?, Option.map_eq_some_iff]
  constructor
  · rintro ⟨after, hafter, rfl⟩
    rw [← String.toList_inj, after?_eq_some_iff.mp hafter]
    simp
  · rintro rfl
    exact ⟨rest.toList, after?_eq_some_iff.mpr String.toList_append, String.ofList_toList⟩

/-- A text ends with another if that is a suffix of it. -/
theorem endsWith_iff {ending s : String} : endsWith ending s ↔ ending.toList <:+ s.toList :=
  List.isSuffixOf_iff_suffix

/-! ## Words -/

/-- Characters that make up one word. -/
def IsWord (cs : List Char) : Prop :=
  cs ≠ [] ∧ ∀ c ∈ cs, isBlank c = false

instance (cs : List Char) : Decidable (IsWord cs) :=
  decidable_of_iff (!cs.isEmpty && cs.all (!isBlank ·)) (by simp [IsWord])

/-- Pieces stand in the text that they are pieces of, the first at its start. -/
theorem exists_splitOnP_eq (p : Char → Bool) (cs : List Char) :
    ∃ head tail, cs.splitOnP p = head :: tail ∧ head <+: cs ∧ ∀ piece ∈ tail, piece <:+: cs := by
  induction cs with
  | nil => exact ⟨[], [], rfl, List.prefix_rfl, nofun⟩
  | cons c cs ih =>
    obtain ⟨head, tail, hsplit, hhead, htail⟩ := ih
    rw [List.splitOnP_cons_eq_if_modifyHead, hsplit]
    split
    · refine ⟨[], head :: tail, rfl, List.nil_prefix, fun piece hpiece => ?_⟩
      rcases List.mem_cons.mp hpiece with rfl | hpiece
      · exact List.infix_cons hhead.isInfix
      · exact List.infix_cons (htail piece hpiece)
    · refine ⟨c :: head, tail, rfl, (List.prefix_cons_inj c).mpr hhead, fun piece hpiece => ?_⟩
      exact List.infix_cons (htail piece hpiece)

/-- A word of a text has no blank and stands in that text. -/
theorem mem_wordLists {word : List Char} (h : word ∈ wordLists cs) :
    IsWord word ∧ word <:+: cs := by
  obtain ⟨hpiece, hnonempty⟩ := List.mem_filter.mp h
  refine ⟨⟨by simpa using hnonempty, forall_of_mem_splitOnP hpiece⟩, ?_⟩
  obtain ⟨head, tail, hsplit, hhead, htail⟩ := exists_splitOnP_eq isBlank cs
  rw [hsplit] at hpiece
  rcases List.mem_cons.mp hpiece with rfl | hpiece
  · exact hhead.isInfix
  · exact htail word hpiece

@[simp] theorem wordLists_nil : wordLists [] = [] := rfl

/-- A blank parts the words before it from those behind it. -/
theorem wordLists_append_blank {c : Char} (hc : isBlank c) (front back : List Char) :
    wordLists (front ++ c :: back) = wordLists front ++ wordLists back := by
  rw [wordLists, List.splitOnP_append_cons front back hc, List.filter_append]
  rfl

/-- One word is the only word of itself. -/
theorem wordLists_of_isWord (h : IsWord cs) : wordLists cs = [cs] := by
  obtain ⟨hnonempty, hblank⟩ := h
  rw [wordLists, List.splitOnP_eq_singleton hblank]
  simp [hnonempty]

/-- Words that are written with a blank before each are the words of what is written. -/
theorem wordLists_flatMap {words : List (List Char)} (h : ∀ word ∈ words, IsWord word) :
    wordLists (words.flatMap (' ' :: ·)) = words := by
  induction words using List.reverseRecOn with
  | nil => rfl
  | append_singleton words word ih =>
    have hwords : ∀ other ∈ words, IsWord other :=
      fun other hother => h other (List.mem_append_left _ hother)
    have hword : IsWord word := h word (by simp)
    rw [List.flatMap_append, List.flatMap_singleton, wordLists_append_blank rfl, ih hwords,
      wordLists_of_isWord hword]

/-! ## Ends -/

/-- Characters of which neither the first nor the last is blank. -/
def IsTrimmed (cs : List Char) : Prop :=
  (∀ c, cs.head? = some c → isBlank c = false) ∧ ∀ c, cs.getLast? = some c → isBlank c = false

/-- What is left without leading blanks does not begin with one. -/
theorem isBlank_of_head?_dropBlank {c : Char} (h : (dropBlank cs).head? = some c) :
    isBlank c = false := by
  have hhead := List.head?_dropWhile_not isBlank cs
  rw [dropBlank] at h
  rwa [h] at hhead

/-- A text that does not begin with a blank has none to lose there. -/
theorem dropBlank_eq_self (h : ∀ c, cs.head? = some c → isBlank c = false) :
    dropBlank cs = cs := by
  cases cs with
  | nil => rfl
  | cons c cs => rw [dropBlank, List.dropWhile_cons_of_neg (by simp [h c rfl])]

/-- Only of blanks nothing is left without leading blanks. -/
theorem dropBlank_eq_nil_iff : dropBlank cs = [] ↔ ∀ c ∈ cs, isBlank c :=
  List.dropWhile_eq_nil_iff

/-- Only of blanks nothing is left without blanks at both ends. -/
theorem trim_eq_nil_iff : dropBlankEnd (dropBlank cs) = [] ↔ ∀ c ∈ cs, isBlank c := by
  rw [dropBlankEnd, List.reverse_eq_nil_iff, dropBlank_eq_nil_iff]
  constructor
  · intro hblank
    rw [← dropBlank_eq_nil_iff]
    -- What begins with something that is not blank is not all blank.
    cases hdrop : dropBlank cs with
    | nil => rfl
    | cons c rest =>
      have hc : isBlank c = false := isBlank_of_head?_dropBlank (by rw [hdrop]; rfl)
      simp [hblank c (by simp [hdrop])] at hc
  · intro hblank
    simp [dropBlank_eq_nil_iff.mpr hblank]

/-- Without blanks at its end a text is still the front of itself. -/
theorem dropBlankEnd_isPrefix (cs : List Char) : dropBlankEnd cs <+: cs :=
  List.rdropWhile_prefix isBlank cs

/-- Without blanks at both ends a text is still a part of itself. -/
theorem trim_infix (cs : List Char) : dropBlankEnd (dropBlank cs) <:+: cs :=
  (dropBlankEnd_isPrefix (dropBlank cs)).isInfix.trans (List.dropWhile_suffix isBlank).isInfix

/-- A text without the blanks at both ends has no blank at either. -/
theorem isTrimmed_trim (cs : List Char) : IsTrimmed (dropBlankEnd (dropBlank cs)) := by
  refine ⟨fun c hc => ?_, fun c hc => ?_⟩
  · obtain ⟨rest, hrest⟩ := dropBlankEnd_isPrefix (dropBlank cs)
    have hhead : (dropBlank cs).head? = some c := by
      rw [← hrest, List.head?_append, hc]
      rfl
    exact isBlank_of_head?_dropBlank hhead
  · rw [dropBlankEnd, List.getLast?_reverse] at hc
    exact isBlank_of_head?_dropBlank hc

/-- Of a trimmed text nothing is taken away but a blank before it. -/
theorem trim_cons_blank {c : Char} (hc : isBlank c) (h : IsTrimmed cs) :
    dropBlankEnd (dropBlank (c :: cs)) = cs := by
  have hfront : dropBlank (c :: cs) = cs := by
    rw [dropBlank, List.dropWhile_cons_of_pos hc]
    exact dropBlank_eq_self h.1
  have hback : dropBlank cs.reverse = cs.reverse := by
    refine dropBlank_eq_self fun last hlast => h.2 last ?_
    rwa [List.head?_reverse] at hlast
  rw [hfront, dropBlankEnd, hback, List.reverse_reverse]

/-! ## Marks -/

/-- A mark does not reach across a character that it does not hold. -/
theorem infix_of_infix_append_cons {mark front back : List Char} {c : Char} (hc : c ∉ mark)
    (h : mark <:+: front ++ c :: back) : mark <:+: front ∨ mark <:+: back := by
  obtain ⟨before, after, heq⟩ := h
  rw [List.append_assoc, List.append_eq_append_iff] at heq
  rcases heq with ⟨middle, rfl, hright⟩ | ⟨middle, rfl, hright⟩
  · -- It begins in front: it ends there too, since otherwise it would hold `c`.
    rcases List.append_eq_append_iff.mp hright with ⟨rest, rfl, -⟩ | ⟨rest, rfl, hrest⟩
    · exact .inl ⟨before, rest, by simp⟩
    · cases rest with
      | nil => exact .inl ⟨before, [], by simp⟩
      | cons first rest =>
        obtain ⟨rfl, -⟩ := List.cons.inj hrest
        simp at hc
  · cases middle with
    | nil =>
      cases mark with
      | nil => exact .inl (List.nil_infix)
      | cons first mark =>
        obtain ⟨rfl, -⟩ := List.cons.inj hright
        simp at hc
    | cons first middle =>
      obtain ⟨-, rfl⟩ := List.cons.inj hright
      exact .inr ⟨middle, after, by simp⟩

/-- What stands in words that are written with a blank before each stands in one of them. -/
theorem exists_infix_of_infix_flatMap {mark : List Char} (hnonempty : mark ≠ [])
    (hblank : ' ' ∉ mark) {words : List (List Char)} (h : mark <:+: words.flatMap (' ' :: ·)) :
    ∃ word ∈ words, mark <:+: word := by
  induction words using List.reverseRecOn with
  | nil => exact absurd (List.infix_nil.mp h) hnonempty
  | append_singleton words word ih =>
    rw [List.flatMap_append, List.flatMap_singleton] at h
    rcases infix_of_infix_append_cons hblank h with hfront | hback
    · obtain ⟨other, hother, hmark⟩ := ih hfront
      exact ⟨other, List.mem_append_left _ hother, hmark⟩
    · exact ⟨word, by simp, hback⟩

/-- A text parted at the last occurrence of a mark: no occurrence begins later. -/
def IsLastCut (mark cs before after : List Char) : Prop :=
  cs = before ++ mark ++ after ∧ ¬ mark <:+: (mark ++ after).tail

section
variable {mark before after : List Char}

/-- No cut is found exactly if the mark does not occur. -/
theorem cutLast_eq_none_iff (hmark : mark ≠ []) : cutLast mark cs = none ↔ ¬ mark <:+: cs := by
  induction cs with
  | nil => simpa [cutLast] using hmark
  | cons c cs ih =>
    have hafter : after? mark (c :: cs) = none ↔ ¬ mark <+: c :: cs := by
      rw [Option.eq_none_iff_forall_ne_some]
      constructor
      · rintro hnone ⟨rest, hrest⟩
        exact hnone rest (after?_eq_some_iff.mpr hrest.symm)
      · intro hprefix rest hrest
        exact hprefix ⟨rest, (after?_eq_some_iff.mp hrest).symm⟩
    rw [cutLast, List.infix_cons_iff, not_or, ← ih, ← hafter]
    cases hcut : cutLast mark cs with
    | none => simp
    | some cut => simp

/-- The cut that is found is the one at the last occurrence of the mark. -/
theorem cutLast_eq_some_iff (hmark : mark ≠ []) :
    cutLast mark cs = some (before, after) ↔ IsLastCut mark cs before after := by
  constructor
  · intro hcut
    refine ⟨(append_of_cutLast hcut).symm, ?_⟩
    induction cs generalizing before with
    | nil => cases hcut
    | cons c cs ih =>
      rw [cutLast] at hcut
      split at hcut
      · next hrest => cases hcut; exact ih hrest
      · next hrest =>
        simp only [Option.map_eq_some_iff, Prod.mk.injEq] at hcut
        obtain ⟨rest, hrest', -, rfl⟩ := hcut
        rw [← after?_eq_some_iff.mp hrest']
        exact (cutLast_eq_none_iff hmark).mp hrest
  · rintro ⟨rfl, hlast⟩
    induction before with
    | nil =>
      obtain ⟨first, rest, rfl⟩ := List.exists_cons_of_ne_nil hmark
      have hnone := (cutLast_eq_none_iff hmark).mpr hlast
      have hafter : after? (first :: rest) (first :: (rest ++ after)) = some after :=
        after?_eq_some_iff.mpr rfl
      simp only [List.cons_append, List.tail_cons] at hnone
      simp [cutLast, hnone, hafter]
    | cons c before ih =>
      rw [List.cons_append, List.cons_append, cutLast, ih]

end

/-! ## The last part -/

/-- A text parted after the last character of a kind: `back` has none of that kind, and `front` ends
with one, unless it is empty. -/
structure IsLastPart (p : Char → Bool) (cs front back : List Char) : Prop where
  eq : cs = front ++ back
  none : ∀ c ∈ back, p c = false
  last : ∀ c, front.getLast? = some c → p c

/-- The last part of a text is what follows the last character with the property, which the
characters from the end on give. -/
theorem isLastPart_iff {p : Char → Bool} {front back : List Char} :
    IsLastPart p cs front back ↔
      front = (cs.reverse.dropWhile (!p ·)).reverse ∧
        back = (cs.reverse.takeWhile (!p ·)).reverse := by
  constructor
  · rintro ⟨rfl, hnone, hlast⟩
    have hback : ∀ c ∈ back.reverse, (!p c) = true := by simpa using hnone
    have hstop : front.reverse.takeWhile (!p ·) = [] ∧
        front.reverse.dropWhile (!p ·) = front.reverse := by
      cases hfront : front.reverse with
      | nil => exact ⟨rfl, rfl⟩
      | cons c rest =>
        have hc : p c := hlast c (by rw [← List.head?_reverse, hfront]; rfl)
        simp [hc]
    rw [List.reverse_append, List.dropWhile_append_of_pos hback,
      List.takeWhile_append_of_pos hback, hstop.1, hstop.2]
    simp
  · rintro ⟨rfl, rfl⟩
    refine ⟨?_, fun c hc => ?_, fun c hc => ?_⟩
    · rw [← List.reverse_append, List.takeWhile_append_dropWhile, List.reverse_reverse]
    · rw [List.mem_reverse] at hc
      simpa using List.mem_takeWhile_imp hc
    · have hhead := List.head?_dropWhile_not (!p ·) cs.reverse
      rw [List.getLast?_reverse] at hc
      rw [hc] at hhead
      simpa using hhead

end PocketShell.Text
