import PocketShell.Line
import PocketShell.Proofs.Text.Cut

/-!
# Reading what is printed

`Line.WellFormed` characterizes the lines that a text can make: they are the ones that are read back
from their printed form. `Line.FirstWord` and `Line.Chosen` say where a text is cut. Main statement:
`Line.parse_print`.
-/

namespace PocketShell

namespace Line

/-! ## Where a text is cut -/

/-- The first word of a text, and what follows it. -/
structure FirstWord (input : String) (name rest : List Char) : Prop where
  isWord : Text.IsWord name
  /-- Only blanks stand before it. -/
  eq : ∃ blanks, (∀ c ∈ blanks, Text.isBlank c) ∧ input.toList = blanks ++ (name ++ rest)
  /-- A blank ends it, or the end of the text. -/
  blank : ∀ c, rest.head? = some c → Text.isBlank c

/-- The operator that redirects, of those in a text: what stands before and after it, and its
mode. -/
inductive Chosen (rest before after : List Char) : WriteMode → Prop
  /-- The last `>>`. -/
  | append : Text.IsLastCut ['>', '>'] rest before after → Chosen rest before after .append
  /-- The last `>`, if there is no `>>`. -/
  | overwrite : ¬ ['>', '>'] <:+: rest → Text.IsLastCut ['>'] rest before after →
      Chosen rest before after .overwrite

/-- There is no operator exactly if there is no `>`. -/
theorem cutOperator?_eq_none_iff {rest : List Char} : cutOperator? rest = none ↔ '>' ∉ rest := by
  have hsingle : Text.cutLast ['>'] rest = none ↔ ¬ ['>'] <:+: rest :=
    Text.cutLast_eq_none_iff (by simp)
  rw [List.singleton_infix_iff] at hsingle
  rw [cutOperator?, ← hsingle]
  split
  · next before after hcut =>
    have hmem : '>' ∈ rest := by
      rw [← Text.append_of_cutLast hcut]
      simp
    simp [hsingle, hmem]
  · simp

/-- The operator that is found is the last `>>`, and only without one the last `>`. -/
theorem cutOperator?_eq_some_iff {rest before after : List Char} {mode : WriteMode} :
    cutOperator? rest = some (before, after, mode) ↔ Chosen rest before after mode := by
  have hdouble (front back : List Char) : Text.cutLast ['>', '>'] rest = some (front, back) ↔
      Text.IsLastCut ['>', '>'] rest front back := Text.cutLast_eq_some_iff (by simp)
  have hsingle (front back : List Char) : Text.cutLast ['>'] rest = some (front, back) ↔
      Text.IsLastCut ['>'] rest front back := Text.cutLast_eq_some_iff (by simp)
  have hnone : Text.cutLast ['>', '>'] rest = none ↔ ¬ ['>', '>'] <:+: rest :=
    Text.cutLast_eq_none_iff (by simp)
  rw [cutOperator?]
  cases hcut : Text.cutLast ['>', '>'] rest with
  | some cut =>
    constructor
    · rintro ⟨⟩
      exact .append ((hdouble _ _).mp hcut)
    · intro h
      cases h with
      | append h => rw [(hdouble _ _).mpr h] at hcut; cases hcut; rfl
      | overwrite h => rw [hnone.mpr h] at hcut; cases hcut
  | none =>
    simp only [Option.map_eq_some_iff, Prod.mk.injEq]
    constructor
    · rintro ⟨⟨front, back⟩, hfound, rfl, rfl, rfl⟩
      exact .overwrite (hnone.mp hcut) ((hsingle _ _).mp hfound)
    · intro h
      cases h with
      | append h => rw [(hdouble _ _).mpr h] at hcut; cases hcut
      | overwrite _ h => exact ⟨(before, after), (hsingle _ _).mpr h, rfl, rfl, rfl⟩

/-- What follows a name holds no operator, or one of its operators redirects. -/
theorem not_mem_or_chosen (rest : List Char) :
    '>' ∉ rest ∨ ∃ before after mode, Chosen rest before after mode := by
  cases hcut : cutOperator? rest with
  | none => exact .inl (cutOperator?_eq_none_iff.mp hcut)
  | some cut =>
    obtain ⟨before, after, mode⟩ := cut
    exact .inr ⟨before, after, mode, cutOperator?_eq_some_iff.mp hcut⟩

/-! ## What a text makes -/

section
variable {name rest before after : List Char} {mode : WriteMode}

/-- Without an operator all the words after the first are arguments. -/
theorem ofParts_of_not_mem (h : '>' ∉ rest) :
    ofParts name rest =
      .ok ⟨String.ofList name, (Text.wordLists rest).map String.ofList, none⟩ := by
  rw [ofParts, cutOperator?_eq_none_iff.mpr h]

/-- With an operator the words before it are arguments and the text after it, without blanks around
it, is the target, which has to be there. -/
theorem ofParts_of_chosen (h : Chosen rest before after mode) :
    ofParts name rest =
      if Text.dropBlankEnd (Text.dropBlank after) = [] then .error .missingRedirectTarget
      else .ok ⟨String.ofList name, (Text.wordLists before).map String.ofList,
        some ⟨String.ofList (Text.dropBlankEnd (Text.dropBlank after)), mode⟩⟩ := by
  rw [ofParts, cutOperator?_eq_some_iff.mpr h]
  simp only
  split
  · next htarget => rw [if_pos htarget]
  · next htarget => rw [if_neg htarget]

/-- A line is refused if only blanks follow the operator that redirects, and for no other reason. -/
theorem ofParts_eq_error_iff {error : CommandError} :
    ofParts name rest = .error error ↔ error = .missingRedirectTarget ∧
      ∃ before after mode, Chosen rest before after mode ∧ ∀ c ∈ after, Text.isBlank c := by
  constructor
  · intro herror
    rcases not_mem_or_chosen rest with hplain | ⟨before, after, mode, hchosen⟩
    · rw [ofParts_of_not_mem hplain] at herror
      cases herror
    · rw [ofParts_of_chosen hchosen] at herror
      split at herror
      · next htarget =>
        cases herror
        exact ⟨rfl, before, after, mode, hchosen, Text.trim_eq_nil_iff.mp htarget⟩
      · cases herror
  · rintro ⟨rfl, before, after, mode, hchosen, hblank⟩
    rw [ofParts_of_chosen hchosen, if_pos (Text.trim_eq_nil_iff.mpr hblank)]

end

section
variable {input : String} {name rest : List Char}

/-- A text with a first word is a line of that word, or an error. -/
theorem parse_of_firstWord (h : FirstWord input name rest) :
    parse input = (ofParts name rest).map some := by
  obtain ⟨⟨hnonempty, hword⟩, ⟨blanks, hblanks, heq⟩, hrest⟩ := h
  obtain ⟨first, others, rfl⟩ := List.exists_cons_of_ne_nil hnonempty
  have hdrop : Text.dropBlank input.toList = first :: others ++ rest := by
    rw [heq, Text.dropBlank, List.dropWhile_append_of_pos hblanks]
    exact Text.dropBlank_eq_self fun c hc => hword c (by cases hc; simp)
  -- The word ends where the next blank stands, or with the text.
  have hstop : rest.takeWhile (!Text.isBlank ·) = [] ∧ rest.dropWhile (!Text.isBlank ·) = rest := by
    cases rest with
    | nil => exact ⟨rfl, rfl⟩
    | cons c rest => simp [hrest c rfl]
  have hmem : ∀ c ∈ first :: others, (!Text.isBlank c) = true := by simpa using hword
  have htake : (first :: others ++ rest).takeWhile (!Text.isBlank ·) = first :: others := by
    rw [List.takeWhile_append_of_pos hmem, hstop.1, List.append_nil]
  have hleft : (first :: others ++ rest).dropWhile (!Text.isBlank ·) = rest := by
    rw [List.dropWhile_append_of_pos hmem, hstop.2]
  rw [parse, hdrop, htake, hleft]

/-- A text that is not blank has a first word. -/
theorem exists_firstWord (h : ¬ ∀ c ∈ input.toList, Text.isBlank c) :
    ∃ name rest, FirstWord input name rest := by
  obtain ⟨first, others, hdrop⟩ :=
    List.exists_cons_of_ne_nil (mt Text.dropBlank_eq_nil_iff.mp h)
  have hhead : (Text.dropBlank input.toList).head? = some first := by
    rw [hdrop]
    rfl
  have hfirst : Text.isBlank first = false := Text.isBlank_of_head?_dropBlank hhead
  refine ⟨(first :: others).takeWhile (!Text.isBlank ·),
    (first :: others).dropWhile (!Text.isBlank ·), ⟨?_, ?_⟩, ⟨input.toList.takeWhile Text.isBlank,
      fun c hc => List.mem_takeWhile_imp hc, ?_⟩, fun c hc => ?_⟩
  · rw [List.takeWhile_cons_of_pos (by simp [hfirst])]
    simp
  · intro c hc
    simpa using List.mem_takeWhile_imp hc
  · rw [List.takeWhile_append_dropWhile, ← hdrop, Text.dropBlank, List.takeWhile_append_dropWhile]
  · have hhead := List.head?_dropWhile_not (!Text.isBlank ·) (first :: others)
    rw [hc] at hhead
    simpa using hhead

/-- A blank text is no line. -/
theorem parse_of_blank (h : ∀ c ∈ input.toList, Text.isBlank c) : parse input = .ok none := by
  rw [parse, Text.dropBlank_eq_nil_iff.mpr h]
  rfl

/-- Exactly a blank text is no line and no error either. -/
theorem parse_eq_none_iff : parse input = .ok none ↔ ∀ c ∈ input.toList, Text.isBlank c := by
  refine ⟨fun hnone => ?_, parse_of_blank⟩
  by_contra hblank
  obtain ⟨name, rest, hfirst⟩ := exists_firstWord hblank
  rw [parse_of_firstWord hfirst] at hnone
  cases hparts : ofParts name rest with
  | error error => rw [hparts] at hnone; cases hnone
  | ok line => rw [hparts] at hnone; cases hnone

/-- The target is missing exactly if there is an operator after the first word, and nothing but
blanks behind it. -/
theorem parse_eq_error_iff : parse input = .error .missingRedirectTarget ↔
    ∃ name rest before after mode, FirstWord input name rest ∧ Chosen rest before after mode ∧
      ∀ c ∈ after, Text.isBlank c := by
  constructor
  · intro herror
    have hblank : ¬ ∀ c ∈ input.toList, Text.isBlank c := by
      intro hblank
      rw [parse_of_blank hblank] at herror
      cases herror
    obtain ⟨name, rest, hfirst⟩ := exists_firstWord hblank
    rw [parse_of_firstWord hfirst] at herror
    cases hparts : ofParts name rest with
    | ok line => rw [hparts] at herror; cases herror
    | error error =>
      obtain ⟨-, before, after, mode, hchosen, hafter⟩ := ofParts_eq_error_iff.mp hparts
      exact ⟨name, rest, before, after, mode, hfirst, hchosen, hafter⟩
  · rintro ⟨name, rest, before, after, mode, hfirst, hchosen, hafter⟩
    rw [parse_of_firstWord hfirst,
      ofParts_eq_error_iff.mpr ⟨rfl, before, after, mode, hchosen, hafter⟩]
    rfl

end

/-! ## Lines that are read back -/

/-- A line that a text can make. -/
structure WellFormed (line : Line) : Prop where
  name : Text.IsWord line.name.toList
  args : ∀ arg ∈ line.args, Text.IsWord arg.toList
  /-- Without a redirection no argument holds an operator. -/
  plain : line.redirect = none → ∀ arg ∈ line.args, '>' ∉ arg.toList
  target : ∀ redirect, line.redirect = some redirect →
    redirect.target.toList ≠ [] ∧ Text.IsTrimmed redirect.target.toList
  /-- There is no `>>` before the operator, or it would not be `>`, and no other one after it. -/
  overwrite : ∀ target, line.redirect = some ⟨target, .overwrite⟩ →
    (∀ arg ∈ line.args, ¬ ['>', '>'] <:+: arg.toList) ∧ '>' ∉ target.toList
  /-- There is no other `>>` after the operator. -/
  append : ∀ target, line.redirect = some ⟨target, .append⟩ → ¬ ['>', '>'] <:+: target.toList

/-- A word of a text has no blank and stands in that text. -/
theorem mem_words {cs : List Char} {arg : String}
    (h : arg ∈ (Text.wordLists cs).map String.ofList) :
    Text.IsWord arg.toList ∧ arg.toList <:+: cs := by
  obtain ⟨word, hword, rfl⟩ := List.mem_map.mp h
  rw [String.toList_ofList]
  exact Text.mem_wordLists hword

/-- Whatever a text makes is well formed. -/
theorem wellFormed_of_ofParts {name rest : List Char} {line : Line} (hname : Text.IsWord name)
    (h : ofParts name rest = .ok line) : line.WellFormed ∧ line.name.toList = name := by
  rcases not_mem_or_chosen rest with hplain | ⟨before, after, mode, hchosen⟩
  · rw [ofParts_of_not_mem hplain] at h
    cases h
    refine ⟨⟨?_, fun arg harg => (mem_words harg).1, ?_, nofun, nofun, nofun⟩,
      String.toList_ofList⟩
    · rwa [String.toList_ofList]
    · intro _ arg harg hmem
      exact hplain ((mem_words harg).2.subset hmem)
  · rw [ofParts_of_chosen hchosen] at h
    split at h
    · cases h
    next htarget =>
    cases h
    refine ⟨⟨?_, fun arg harg => (mem_words harg).1, nofun, ?_, ?_, ?_⟩, String.toList_ofList⟩
    · rwa [String.toList_ofList]
    · rintro redirect ⟨⟩
      rw [String.toList_ofList]
      exact ⟨htarget, Text.isTrimmed_trim after⟩
    · rintro target ⟨⟩
      cases hchosen with
      | overwrite hdouble hcut =>
        obtain ⟨hrest, hlater⟩ := hcut
        refine ⟨fun arg harg hmark => hdouble ?_, fun hmem => hlater ?_⟩
        · have hbefore : before <:+: rest := ⟨[], '>' :: after, by simp [hrest]⟩
          exact (hmark.trans (mem_words harg).2).trans hbefore
        · rw [String.toList_ofList] at hmem
          exact (List.singleton_infix_iff _ _).mpr ((Text.trim_infix after).subset hmem)
    · rintro target ⟨⟩
      cases hchosen with
      | append hcut =>
        intro hmark
        rw [String.toList_ofList] at hmark
        exact hcut.2 (List.infix_cons (hmark.trans (Text.trim_infix after)))

/-! ## Printed lines -/

/-- The characters of arguments. -/
def argChars (args : List String) : List Char :=
  (args.map String.toList).flatMap (' ' :: ·)

/-- The characters of a redirection. -/
def redirectChars : Option Redirect → List Char
  | none => []
  | some redirect => ' ' :: (operator redirect.mode).toList ++ ' ' :: redirect.target.toList

/-- The characters of a printed line are those of its parts. -/
theorem toList_print (line : Line) :
    line.print.toList =
      line.name.toList ++ (argChars line.args ++ redirectChars line.redirect) := by
  obtain ⟨name, args, redirect⟩ := line
  have hargs : (String.join (args.map (" " ++ ·))).toList = argChars args := by
    simp [String.toList_join, argChars, List.flatMap_map]
  cases redirect with
  | none => simp [print, hargs, redirectChars]
  | some redirect => simp [print, hargs, redirectChars]

/-- The first word of a printed line is its name. -/
theorem firstWord_print {line : Line} (h : Text.IsWord line.name.toList) :
    FirstWord line.print line.name.toList (argChars line.args ++ redirectChars line.redirect) := by
  refine ⟨h, ⟨[], nofun, line.toList_print⟩, fun c hc => ?_⟩
  have hspace : c = ' ' := by
    cases hargs : line.args with
    | cons arg args =>
      simp [hargs, argChars] at hc
      exact hc.symm
    | nil =>
      cases hredirect : line.redirect with
      | none => simp [hargs, hredirect, argChars, redirectChars] at hc
      | some redirect =>
        simp [hargs, hredirect, argChars, redirectChars] at hc
        exact hc.symm
  rw [hspace]
  rfl

section
variable {args : List String}

/-- The words of printed arguments are these arguments. -/
theorem map_wordLists_argChars (h : ∀ arg ∈ args, Text.IsWord arg.toList) :
    (Text.wordLists (argChars args)).map String.ofList = args := by
  rw [argChars, Text.wordLists_flatMap (by simpa using h), List.map_map]
  simp [Function.comp_def]

/-- A blank at the end of printed arguments adds no word. -/
theorem map_wordLists_argChars_blank (h : ∀ arg ∈ args, Text.IsWord arg.toList) :
    (Text.wordLists (argChars args ++ [' '])).map String.ofList = args := by
  rw [Text.wordLists_append_blank rfl, Text.wordLists_nil, List.append_nil,
    map_wordLists_argChars h]

/-- Printed arguments hold no operator if none of them does. -/
theorem not_mem_argChars (h : ∀ arg ∈ args, '>' ∉ arg.toList) : '>' ∉ argChars args := by
  simpa [argChars, List.mem_flatMap] using h

/-- Before a target that follows a blank, no `>` makes a `>>` with it. -/
theorem infix_target {target : List Char} (h : ['>', '>'] <:+: '>' :: ' ' :: target) :
    ['>', '>'] <:+: target := by
  have hsplit : ['>', '>'] <:+: ['>'] ++ ' ' :: target := h
  rcases Text.infix_of_infix_append_cons (by decide) hsplit with hfront | hback
  · have hlength := hfront.length_le
    simp at hlength
  · exact hback

/-- The operator that is printed is the one that redirects. -/
theorem chosen_print {name : String} {redirect : Redirect}
    (h : WellFormed ⟨name, args, some redirect⟩) :
    Chosen (argChars args ++ redirectChars (some redirect)) (argChars args ++ [' '])
      (' ' :: redirect.target.toList) redirect.mode := by
  obtain ⟨target, mode⟩ := redirect
  cases mode with
  | append =>
    have htarget := h.append target rfl
    refine .append ⟨by simp [redirectChars, operator], fun hlater => htarget ?_⟩
    exact infix_target hlater
  | overwrite =>
    obtain ⟨hargs, htarget⟩ := h.overwrite target rfl
    refine .overwrite (fun hmark => ?_) ⟨by simp [redirectChars, operator], fun hlater => ?_⟩
    · have hsplit : ['>', '>'] <:+: argChars args ++ ' ' :: '>' :: ' ' :: target.toList := by
        simpa [redirectChars, operator] using hmark
      rcases Text.infix_of_infix_append_cons (by decide) hsplit with hfront | hback
      · obtain ⟨word, hword, hinfix⟩ :=
          Text.exists_infix_of_infix_flatMap (by simp) (by decide) hfront
        obtain ⟨arg, harg, rfl⟩ := List.mem_map.mp hword
        exact hargs arg harg hinfix
      · exact htarget ((infix_target hback).subset (by simp))
    · have hmem := (List.singleton_infix_iff _ _).mp hlater
      simp [htarget] at hmem

end

/-- A well-formed line is read back from its printed form. -/
theorem parse_print_of_wellFormed {line : Line} (h : line.WellFormed) :
    parse line.print = .ok (some line) := by
  rw [parse_of_firstWord (firstWord_print h.name)]
  obtain ⟨name, args, redirect⟩ := line
  cases redirect with
  | none =>
    have hplain : '>' ∉ argChars args ++ redirectChars none := by
      rw [redirectChars, List.append_nil]
      exact not_mem_argChars (h.plain rfl)
    rw [ofParts_of_not_mem hplain, redirectChars, List.append_nil, map_wordLists_argChars h.args,
      String.ofList_toList]
    rfl
  | some redirect =>
    obtain ⟨hnonempty, htrimmed⟩ := h.target redirect rfl
    have htarget := Text.trim_cons_blank (c := ' ') rfl htrimmed
    rw [ofParts_of_chosen (chosen_print h), htarget, if_neg hnonempty,
      map_wordLists_argChars_blank h.args, String.ofList_toList, String.ofList_toList]
    rfl

/-- **Reading and printing are inverse.** A text makes no line exactly if it is blank, and is
refused exactly if only blanks follow the operator that redirects. In all other cases it makes a
well-formed line, whose name is the first word, and the printed form of that line makes the same
line. Every well-formed line is read back from its printed form. -/
theorem parse_print (input : String) :
    (parse input = .ok none ↔ ∀ c ∈ input.toList, Text.isBlank c) ∧
      (parse input = .error .missingRedirectTarget ↔
        ∃ name rest before after mode, FirstWord input name rest ∧
          Chosen rest before after mode ∧ ∀ c ∈ after, Text.isBlank c) ∧
      (parse input = .ok none ∨ parse input = .error .missingRedirectTarget ∨
        ∃ line, parse input = .ok (some line) ∧ line.WellFormed ∧
          (∃ rest, FirstWord input line.name.toList rest) ∧
          parse line.print = .ok (some line)) ∧
      ∀ line : Line, line.WellFormed → parse line.print = .ok (some line) := by
  refine ⟨parse_eq_none_iff, parse_eq_error_iff, ?_, fun _ => parse_print_of_wellFormed⟩
  by_cases hblank : ∀ c ∈ input.toList, Text.isBlank c
  · exact .inl (parse_of_blank hblank)
  · obtain ⟨name, rest, hfirst⟩ := exists_firstWord hblank
    have hparse := parse_of_firstWord hfirst
    cases hparts : ofParts name rest with
    | error error =>
      obtain ⟨rfl, -⟩ := ofParts_eq_error_iff.mp hparts
      rw [hparts] at hparse
      exact .inr (.inl hparse)
    | ok line =>
      obtain ⟨hline, rfl⟩ := wellFormed_of_ofParts hfirst.isWord hparts
      rw [hparts] at hparse
      exact .inr (.inr ⟨line, hparse, hline, ⟨rest, hfirst⟩, parse_print_of_wellFormed hline⟩)

/-- Operators in the name, in the arguments and in the target, none of which redirects. -/
theorem parse_print_of_operators :
    let line : Line := ⟨"a>b", [">>", "c>"], some ⟨"> d e", .append⟩⟩
    line.WellFormed ∧ parse line.print = .ok (some line) := by
  intro line
  have hline : line.WellFormed := by
    refine ⟨by decide, by decide, nofun, ?_, ?_, ?_⟩
    · rintro redirect ⟨⟩
      exact ⟨by decide, by rintro c ⟨⟩; rfl, by rintro c ⟨⟩; rfl⟩
    · rintro target hredirect
      simp [line] at hredirect
    · rintro target ⟨⟩
      decide
  exact ⟨hline, (parse_print line.print).2.2.2 line hline⟩

end Line

end PocketShell
