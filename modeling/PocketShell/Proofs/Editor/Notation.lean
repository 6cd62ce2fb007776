import Mathlib.Data.List.Infix
import Mathlib.Data.List.TakeWhile
import PocketShell.Editor.Key
import PocketShell.Named

/-!
# The notation of keys

Keys that are written down are read back, whatever text follows (`Key.sequence_written`).
`Key.Reads` says what a text stands for if brackets make a key only around one of the names of keys;
this is one sequence of keys (`Key.Reads.unique`). Main statement: `Key.reads_sequence_iff`, a text
is read so unless it has a single character of more than one byte between brackets.
-/

namespace PocketShell.Key

/-- A text begins with a name of a key and a closing bracket, after which `rest` follows. -/
def Names (cs : List Char) (key : Key) (rest : List Char) : Prop :=
  ∃ name, '>' ∉ name ∧ cs = name ++ '>' :: rest ∧ (String.ofList name, key) ∈ names

/-- The keys that a text stands for, read from left to right: a name of a key in brackets stands for
that key, every other character for its own. -/
inductive Reads : List Char → List Key → Prop
  | nil : Reads [] []
  | name {cs rest : List Char} {key : Key} {keys : List Key} :
      Names cs key rest → Reads rest keys → Reads ('<' :: cs) (key :: keys)
  | literal {c : Char} {cs : List Char} {keys : List Key} :
      (c = '<' → ∀ key rest, ¬ Names cs key rest) → Reads cs keys → Reads (c :: cs) (char c :: keys)

variable {cs rest : List Char} {key : Key}

/-! ## What stands between brackets -/

/-- No name stands for two keys. -/
theorem nodup_names : (Named.names names).Nodup := by
  decide +kernel

/-- Looking up a name finds the key that the table has beside it, as no name is twice in the table.
-/
theorem lookup_names_iff {name : String} : names.lookup name = some key ↔ (name, key) ∈ names :=
  ⟨Named.mem_of_get?, Named.get?_of_mem nodup_names⟩

/-- The names have two characters or more, and no brackets. -/
theorem forall_names :
    ∀ entry ∈ names, 1 < entry.1.toList.length ∧ '<' ∉ entry.1.toList ∧ '>' ∉ entry.1.toList := by
  decide +kernel

/-- A name of a key has more than one character, and none of them is a bracket. -/
theorem plain_of_mem_names {name : List Char} (h : (String.ofList name, key) ∈ names) :
    1 < name.length ∧ '<' ∉ name ∧ '>' ∉ name := by
  simpa using forall_names _ h

/-- Between brackets a key is named by one of its names, or by a single character of more than one
byte. -/
theorem named?_eq_some_iff {name : List Char} :
    named? (String.ofList name) = some key ↔
      (String.ofList name, key) ∈ names ∨ ∃ c, name = [c] ∧ 1 < c.utf8Size ∧ key = char c := by
  have hnot (hshort : name.length ≤ 1) : (String.ofList name, key) ∉ names :=
    fun h => absurd (plain_of_mem_names h).1 (Nat.not_lt.mpr hshort)
  rw [named?, ofName?, String.toList_ofList]
  match name with
  | [] => simp [hnot]
  | [c] =>
    rw [or_iff_right (hnot (Nat.le_refl 1))]
    simp [eq_comm]
  | first :: second :: others =>
    have hfirst := first.utf8Size_pos
    have hsecond := second.utf8Size_pos
    have hsize : 1 < (String.ofList (first :: second :: others)).utf8ByteSize := by
      simp only [String.ofList_cons, String.utf8ByteSize_append, String.utf8ByteSize_singleton]
      omega
    rw [if_pos hsize, ← lookup_names_iff]
    simp

/-- After an opening bracket, what is read is the text up to the first closing bracket, if it stands
for a key. -/
theorem bracketed?_eq_some_iff_exists :
    bracketed? cs = some (key, rest) ↔
      ∃ name, '>' ∉ name ∧ cs = name ++ '>' :: rest ∧ named? (String.ofList name) = some key := by
  have hcut : cs.takeWhile (· != '>') ++ cs.dropWhile (· != '>') = cs :=
    List.takeWhile_append_dropWhile
  have hname : '>' ∉ cs.takeWhile (· != '>') := fun h => by simpa using List.mem_takeWhile_imp h
  constructor
  · intro h
    unfold bracketed? at h
    split at h
    · cases h
    · next mark after hdrop =>
      obtain ⟨named, hnamed, heq⟩ := Option.map_eq_some_iff.mp h
      cases heq
      have hmark : mark = '>' := by
        have hhead := List.head?_dropWhile_not (· != '>') cs
        simpa [hdrop] using hhead
      rw [hdrop, hmark] at hcut
      exact ⟨_, hname, hcut.symm, hnamed⟩
  · rintro ⟨name, hmark, rfl, hnamed⟩
    have hpass : ∀ c ∈ name, (c != '>') = true :=
      fun c hc => bne_iff_ne.mpr fun heq => hmark (heq ▸ hc)
    rw [bracketed?, List.dropWhile_append_of_pos hpass, List.takeWhile_append_of_pos hpass]
    simp [hnamed]

/-- Between brackets a name of a key is read as that key, and so is a single character, as itself,
if it takes more than one byte. -/
theorem bracketed?_eq_some_iff :
    bracketed? cs = some (key, rest) ↔
      Names cs key rest ∨ ∃ c, cs = c :: '>' :: rest ∧ 1 < c.utf8Size ∧ key = char c := by
  rw [bracketed?_eq_some_iff_exists]
  constructor
  · rintro ⟨name, hmark, rfl, hnamed⟩
    rcases named?_eq_some_iff.mp hnamed with hnamed | ⟨c, rfl, hsize, rfl⟩
    · exact .inl ⟨name, hmark, rfl, hnamed⟩
    · exact .inr ⟨c, rfl, hsize, rfl⟩
  · rintro (⟨name, hmark, rfl, hnamed⟩ | ⟨c, rfl, hsize, rfl⟩)
    · exact ⟨name, hmark, rfl, named?_eq_some_iff.mpr (.inl hnamed)⟩
    · have hmark : '>' ∉ [c] := by
        rw [List.mem_singleton]
        rintro rfl
        exact absurd hsize (by decide)
      exact ⟨[c], hmark, rfl, named?_eq_some_iff.mpr (.inr ⟨c, rfl, hsize, rfl⟩)⟩

/-- A text begins with one name at most: the name ends at the first closing bracket. -/
theorem Names.unique {other : Key} {otherRest : List Char} (h : Names cs key rest)
    (hother : Names cs other otherRest) : key = other ∧ rest = otherRest := by
  have hfirst := bracketed?_eq_some_iff.mpr (.inl h)
  have hsecond := bracketed?_eq_some_iff.mpr (.inl hother)
  rw [hfirst] at hsecond
  cases hsecond
  exact ⟨rfl, rfl⟩

/-- A single character between brackets is no name. -/
theorem not_names_single {c : Char} : ¬ Names (c :: '>' :: rest) key cs := by
  rintro ⟨name, hmark, heq, hnamed⟩
  obtain ⟨hlength, -⟩ := plain_of_mem_names hnamed
  match name with
  | [] | [_] => simp at hlength
  | _ :: second :: _ =>
    obtain ⟨-, heq⟩ := List.cons.inj heq
    obtain ⟨rfl, -⟩ := List.cons.inj heq
    simp at hmark

/-! ## Reading -/

section
variable {c : Char} {keys : List Key}

/-- A text that begins with a name in brackets is read as its key first. -/
theorem reads_name_iff (h : Names cs key rest) :
    Reads ('<' :: cs) keys ↔ ∃ later, keys = key :: later ∧ Reads rest later := by
  constructor
  · intro hreads
    cases hreads with
    | name hname hrest =>
      obtain ⟨rfl, rfl⟩ := hname.unique h
      exact ⟨_, rfl, hrest⟩
    | literal hnot _ => exact absurd h (hnot rfl key rest)
  · rintro ⟨later, rfl, hrest⟩
    exact .name h hrest

/-- A text that does not begin with a name in brackets is read as its first character first. -/
theorem reads_literal_iff (h : c = '<' → ∀ key rest, ¬ Names cs key rest) :
    Reads (c :: cs) keys ↔ ∃ later, keys = char c :: later ∧ Reads cs later := by
  constructor
  · intro hreads
    cases hreads with
    | name hname _ => exact absurd hname (h rfl _ _)
    | literal _ hrest => exact ⟨_, rfl, hrest⟩
  · rintro ⟨later, rfl, hrest⟩
    exact .literal h hrest

/-- **A text is read in one way.** -/
theorem Reads.unique {others : List Key} (h : Reads cs keys) (hother : Reads cs others) :
    keys = others := by
  induction h generalizing others with
  | nil => cases hother; rfl
  | name hname _ ih =>
    obtain ⟨later, rfl, hrest⟩ := (reads_name_iff hname).mp hother
    rw [ih hrest]
  | literal hnot _ ih =>
    obtain ⟨later, rfl, hrest⟩ := (reads_literal_iff hnot).mp hother
    rw [ih hrest]

end

/-! ## Single characters between brackets -/

/-- Every single character that stands between brackets is written in one byte. -/
def Narrow (cs : List Char) : Prop :=
  ∀ c, ['<', c, '>'] <:+: cs → c.utf8Size = 1

/-- A character that does not open a single one in brackets makes no difference to `Narrow`. -/
theorem narrow_literal_iff {c : Char}
    (h : c = '<' → ∀ single rest, cs = single :: '>' :: rest → single.utf8Size = 1) :
    Narrow (c :: cs) ↔ Narrow cs := by
  constructor
  · intro hnarrow single hsingle
    exact hnarrow single (List.infix_cons hsingle)
  · intro hnarrow single hsingle
    rcases List.infix_cons_iff.mp hsingle with ⟨rest, hrest⟩ | hlater
    · obtain ⟨rfl, hcs⟩ := List.cons.inj hrest
      exact h rfl single rest hcs.symm
    · exact hnarrow single hlater

/-- Characters without an opening bracket make no difference to `Narrow`. -/
theorem narrow_append_iff {front : List Char} (h : '<' ∉ front) :
    Narrow (front ++ cs) ↔ Narrow cs := by
  induction front with
  | nil => rfl
  | cons c front ih =>
    obtain ⟨hc, hfront⟩ := not_or.mp (mt List.mem_cons.mpr h)
    rw [List.cons_append, narrow_literal_iff fun heq => absurd heq.symm hc, ih hfront]

/-- A name in brackets makes no difference to `Narrow`: it is no single character and holds no
bracket. -/
theorem narrow_name_iff (h : Names cs key rest) : Narrow ('<' :: cs) ↔ Narrow rest := by
  have hsingle (single : Char) (after : List Char) (hcs : cs = single :: '>' :: after) :
      single.utf8Size = 1 := absurd (hcs ▸ h) not_names_single
  rw [narrow_literal_iff fun _ => hsingle]
  obtain ⟨name, -, rfl, hnamed⟩ := h
  obtain ⟨-, hopen, -⟩ := plain_of_mem_names hnamed
  rw [narrow_append_iff hopen, narrow_literal_iff (by simp)]

/-- A single character in brackets is narrow if it takes one byte. -/
theorem narrow_single_iff (c : Char) : Narrow ['<', c, '>'] ↔ c.utf8Size = 1 := by
  constructor
  · intro hnarrow
    exact hnarrow c List.infix_rfl
  · intro hsize other hother
    have hsame : ['<', other, '>'] = ['<', c, '>'] := hother.eq_of_length rfl
    simp only [List.cons.injEq] at hsame
    rw [hsame.2.1, hsize]

/-- **What is read with brackets for names only**: the texts in which every single character between
brackets is written in one byte. -/
theorem reads_ofChars_iff (cs : List Char) : Reads cs (ofChars cs) ↔ Narrow cs := by
  fun_induction ofChars cs with
  | case1 =>
    have hnil : Narrow [] := fun c hc => by simp at hc
    exact iff_of_true .nil hnil
  | case2 cs key rest h ih =>
    rcases bracketed?_eq_some_iff.mp h with hname | ⟨single, rfl, hsize, rfl⟩
    · rw [reads_name_iff hname, narrow_name_iff hname, ← ih]
      simp
    · -- The single character is read as a key of its own, and the brackets are lost.
      refine iff_of_false (fun hreads => ?_) fun hnarrow => ?_
      · rw [reads_literal_iff fun _ _ _ => not_names_single] at hreads
        obtain ⟨later, heq, -⟩ := hreads
        obtain ⟨hopen, -⟩ := List.cons.inj heq
        cases hopen
        exact absurd hsize (by decide)
      · have hone := hnarrow single ⟨[], rest, rfl⟩
        omega
  | case3 cs h ih =>
    have hnot (key : Key) (rest : List Char) : ¬ Names cs key rest := by
      intro hname
      rw [bracketed?_eq_some_iff.mpr (.inl hname)] at h
      cases h
    have hsingle (single : Char) (rest : List Char) (hcs : cs = single :: '>' :: rest) :
        single.utf8Size = 1 := by
      by_contra hsize
      have hwide : 1 < single.utf8Size := Nat.lt_of_le_of_ne single.utf8Size_pos (Ne.symm hsize)
      rw [bracketed?_eq_some_iff.mpr (.inr ⟨single, hcs, hwide, rfl⟩)] at h
      cases h
    rw [reads_literal_iff fun _ => hnot, narrow_literal_iff fun _ => hsingle, ← ih]
    simp
  | case4 c cs h ih =>
    rw [reads_literal_iff fun heq => absurd heq h, narrow_literal_iff fun heq => absurd heq h, ← ih]
    simp

/-- A single character in brackets stands for three keys, whatever it is: no name of a key is that
short. -/
theorem reads_single (c : Char) : Reads ['<', c, '>'] [char '<', char c, char '>'] := by
  have hclosed (key : Key) (rest : List Char) : ¬ Names ['>'] key rest := by
    rintro ⟨name, hmark, heq, hnamed⟩
    obtain ⟨hlength, -⟩ := plain_of_mem_names hnamed
    have hends := congrArg List.length heq
    simp only [List.length_append, List.length_cons, List.length_nil] at hends
    omega
  have hend : Reads ['>'] [char '>'] := .literal (by simp) .nil
  exact .literal (fun _ _ _ => not_names_single) (.literal (fun _ => hclosed) hend)

/-- **How a text is read.** It is read from left to right, brackets standing for a key only around
one of the names of keys, if and only if no single character of more than one byte stands between
brackets; a single character between brackets makes three keys if and only if it is written in one
byte. -/
theorem reads_sequence_iff (text : String) (c : Char) :
    (Reads text.toList (sequence text) ↔
      ∀ single, ['<', single, '>'] <:+: text.toList → single.utf8Size = 1) ∧
    (sequence (String.ofList ['<', c, '>']) = [char '<', char c, char '>'] ↔
      c.utf8Size = 1) := by
  refine ⟨reads_ofChars_iff text.toList, ?_⟩
  rw [sequence, String.toList_ofList, ← narrow_single_iff, ← reads_ofChars_iff]
  constructor
  · intro heq
    rw [heq]
    exact reads_single c
  · intro hreads
    exact hreads.unique (reads_single c)

/-- A letter with an accent between brackets is read as its key, and the brackets are lost. -/
theorem not_reads_sequence_of_accent :
    sequence "<é>" = [char 'é'] ∧ ¬ Reads "<é>".toList (sequence "<é>") := by
  have hread : sequence "<é>" = [char 'é'] := by
    decide +kernel
  refine ⟨hread, fun hreads => ?_⟩
  have hthree := hreads.unique (reads_single 'é')
  rw [hread] at hthree
  cases hthree

/-! ## Writing -/

/-- What is recognized between brackets is the first key, and reading goes on behind it. -/
theorem ofChars_bracketed (h : bracketed? cs = some (key, rest)) :
    ofChars ('<' :: cs) = key :: ofChars rest := by
  rw [ofChars, if_pos rfl]
  split <;> simp_all

/-- A character that opens no bracket is its own key. -/
theorem ofChars_literal {c : Char} (h : c ≠ '<') : ofChars (c :: cs) = char c :: ofChars cs := by
  rw [ofChars, if_neg h]

/-- A key is written as its character, or as one of its names in brackets. -/
theorem written_cases (key : Key) :
    (∃ c, c ≠ '<' ∧ key = char c ∧ (written key).toList = [c]) ∨
      ∃ name, (String.ofList name, key) ∈ names ∧
        (written key).toList = '<' :: (name ++ ['>']) := by
  cases key with
  | char c =>
    by_cases hc : c = '<'
    · subst hc
      exact .inr ⟨"lt".toList, by decide, by decide⟩
    · exact .inl ⟨c, hc, rfl, by simp [written, hc]⟩
  | escape => exact .inr ⟨"Esc".toList, by decide, by decide⟩
  | enter => exact .inr ⟨"CR".toList, by decide, by decide⟩
  | backspace => exact .inr ⟨"BS".toList, by decide, by decide⟩
  | left => exact .inr ⟨"Left".toList, by decide, by decide⟩
  | right => exact .inr ⟨"Right".toList, by decide, by decide⟩
  | up => exact .inr ⟨"Up".toList, by decide, by decide⟩
  | down => exact .inr ⟨"Down".toList, by decide, by decide⟩

/-- A key is read back from how it is written, whatever follows. -/
theorem ofChars_written (key : Key) (rest : List Char) :
    ofChars ((written key).toList ++ rest) = key :: ofChars rest := by
  rcases written_cases key with ⟨c, hc, rfl, hwritten⟩ | ⟨name, hnamed, hwritten⟩
  · rw [hwritten, List.singleton_append, ofChars_literal hc]
  · have hname : Names (name ++ '>' :: rest) key rest :=
      ⟨name, (plain_of_mem_names hnamed).2.2, rfl, hnamed⟩
    have hsplit : (written key).toList ++ rest = '<' :: (name ++ '>' :: rest) := by
      simp [hwritten]
    rw [hsplit, ofChars_bracketed (bracketed?_eq_some_iff.mpr (.inl hname))]

/-- **What is written is read back**, whatever follows. -/
theorem sequence_written (keys : List Key) (text : String) :
    sequence (String.join (keys.map written) ++ text) = keys ++ sequence text := by
  rw [sequence, String.toList_append, String.toList_join]
  induction keys with
  | nil => rfl
  | cons key keys ih =>
    rw [List.map_cons, List.flatMap_cons, List.append_assoc, ofChars_written, ih, List.cons_append]

end PocketShell.Key
