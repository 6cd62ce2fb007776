import PocketShell.Completion
import PocketShell.Proofs.Text.Cut

/-!
# What completing makes of a line

A line is completed at the end: `Completion.Parts` says where its last word begins and which part of
that word stays as it was typed, `Completion.Extends` what becomes of the line under some candidates
for the rest. What the candidates have in common is a greatest lower bound
(`Completion.prefix_commonOpening_iff`). Main statement: `Completion.extend_ofInput`.
-/

namespace PocketShell

namespace Completion

/-! ## What candidates have in common -/

/-- The common part of two texts begins with exactly what both begin with. -/
theorem prefix_commonPart_iff {cs as bs : List Char} :
    cs <+: commonPart as bs ↔ cs <+: as ∧ cs <+: bs := by
  fun_induction commonPart as bs generalizing cs with
  | case1 as b bs ih =>
    cases cs with
    | nil => simp
    | cons c cs =>
      simp only [List.cons_prefix_cons, ih]
      tauto
  | case2 a as b bs hdiffer =>
    cases cs with
    | nil => simp
    | cons c cs =>
      simp only [List.prefix_nil, List.cons_prefix_cons]
      refine iff_of_false (by simp) ?_
      rintro ⟨⟨rfl, -⟩, ⟨hsame, -⟩⟩
      exact hdiffer hsame
  | case3 as bs hend =>
    have hnil : as = [] ∨ bs = [] := by
      cases as with
      | nil => exact .inl rfl
      | cons a as =>
        cases bs with
        | nil => exact .inr rfl
        | cons b bs => exact absurd rfl (hend a as b bs rfl)
    rw [List.prefix_nil]
    constructor
    · rintro rfl
      exact ⟨List.nil_prefix, List.nil_prefix⟩
    · rintro ⟨has, hbs⟩
      rcases hnil with rfl | rfl
      · exact List.prefix_nil.mp has
      · exact List.prefix_nil.mp hbs

/-- The common part that is gathered from text to text begins with exactly what all of them begin
with. -/
theorem prefix_foldl_commonPart_iff {cs first : List Char} {others : List String} :
    cs <+: others.foldl (fun common other => commonPart common other.toList) first ↔
      cs <+: first ∧ ∀ other ∈ others, cs <+: other.toList := by
  induction others generalizing first with
  | nil => simp
  | cons other others ih =>
    rw [List.foldl_cons, ih, prefix_commonPart_iff, List.forall_mem_cons, and_assoc]

/-- **What candidates have in common**: they all begin with a text if their common opening does. -/
theorem prefix_commonOpening_iff {candidates : List String} (h : candidates ≠ [])
    {cs : List Char} :
    cs <+: (commonOpening candidates).toList ↔
      ∀ candidate ∈ candidates, cs <+: candidate.toList := by
  obtain ⟨first, others, rfl⟩ := List.exists_cons_of_ne_nil h
  rw [commonOpening, String.toList_ofList, prefix_foldl_commonPart_iff, List.forall_mem_cons]

/-- The longest text that some texts begin with. -/
structure IsLongestOpening (texts : List String) (opening : String) : Prop where
  begins : ∀ text ∈ texts, Text.beginsWith opening text
  longest : ∀ other, (∀ text ∈ texts, Text.beginsWith other text) → other.length ≤ opening.length

/-- With the line before them, candidates have as longest opening that line with their common
opening after it. -/
theorem isLongestOpening_append (front : String) {candidates : List String}
    (h : candidates ≠ []) :
    IsLongestOpening (candidates.map (front ++ ·)) (front ++ commonOpening candidates) := by
  obtain ⟨first, others, rfl⟩ := List.exists_cons_of_ne_nil h
  refine ⟨fun text htext => ?_, fun other hother => ?_⟩
  · obtain ⟨candidate, hcandidate, rfl⟩ := List.mem_map.mp htext
    rw [Text.beginsWith_iff, String.toList_append, String.toList_append,
      List.prefix_append_right_inj]
    exact (prefix_commonOpening_iff h).mp List.prefix_rfl candidate hcandidate
  · have hbegins (candidate : String) (hcandidate : candidate ∈ first :: others) :
        other.toList <+: front.toList ++ candidate.toList := by
      rw [← String.toList_append, ← Text.beginsWith_iff]
      exact hother _ (List.mem_map_of_mem hcandidate)
    rw [← String.length_toList, ← String.length_toList, String.toList_append, List.length_append]
    -- It ends in front, or goes on with what all candidates begin with.
    rcases List.prefix_or_prefix_of_prefix (hbegins first (.head _))
      (List.prefix_append front.toList first.toList) with hshort | ⟨rest, hrest⟩
    · exact Nat.le_add_right_of_le hshort.length_le
    · have hcommon : rest <+: (commonOpening (first :: others)).toList := by
        refine (prefix_commonOpening_iff h).mpr fun candidate hcandidate => ?_
        have hlonger := hbegins candidate hcandidate
        rwa [← hrest, List.prefix_append_right_inj] at hlonger
      rw [← hrest, List.length_append]
      exact Nat.add_le_add_left hcommon.length_le _

/-! ## Extending -/

/-- What a line becomes under some candidates for its end; `front` is the line up to that end. -/
inductive Extends (input front : String) : List String → String → Prop
  /-- Without a candidate the line stays as it is. -/
  | nothing : Extends input front [] input
  /-- The only candidate is written out; a blank follows, unless it ends in a slash. -/
  | whole (only : String) :
      Extends input front [only] (front ++ only ++ if Text.endsWith "/" only then "" else " ")
  /-- Of several candidates as much is written as all resulting lines begin with. -/
  | common {candidates : List String} {extended : String} : 2 ≤ candidates.length →
      IsLongestOpening (candidates.map (front ++ ·)) extended →
      Extends input front candidates extended

section
variable {completion : Completion} {way name : String} (front : String)
  (hfragment : completion.fragment = way ++ name) (hkept : completion.kept = way)
include hfragment hkept

/-- What begins with the name that was typed makes the line longer. -/
theorem extend_of_completed? {completed : String} (h : completion.completed? = some completed)
    (hname : Text.beginsWith name completed) :
    completion.extend (front ++ completion.fragment) = front ++ way ++ completed ∧
      Text.beginsWith (front ++ completion.fragment) (front ++ way ++ completed) := by
  obtain ⟨rest, rfl⟩ := Text.beginsWith_iff_exists.mp hname
  have hline : Text.dropEnding? completion.fragment (front ++ completion.fragment) =
      some front := by
    have hbefore : Text.before? completion.fragment.toList (front ++ completion.fragment).toList =
        some front.toList := Text.before?_eq_some_iff.mpr String.toList_append
    rw [Text.dropEnding?, hbefore, Option.map_some, String.ofList_toList]
  have hlonger : front ++ way ++ (name ++ rest) = front ++ completion.fragment ++ rest := by
    rw [hfragment]
    simp only [String.append_assoc]
  refine ⟨?_, Text.beginsWith_iff_exists.mpr ⟨rest, hlonger⟩⟩
  rw [extend, hline, h, hkept]
  simp only [hlonger, String.utf8ByteSize_append]
  rw [if_neg (by omega)]

/-- **What completing makes of a line**: it goes on as typed, by what the candidates allow. -/
theorem extends_extend
    (hbegin : ∀ candidate ∈ completion.candidates, Text.beginsWith name candidate) :
    Text.beginsWith (front ++ completion.fragment)
        (completion.extend (front ++ completion.fragment)) ∧
      Extends (front ++ completion.fragment) (front ++ way) completion.candidates
        (completion.extend (front ++ completion.fragment)) := by
  match hcandidates : completion.candidates with
  | [] =>
    have hnone : completion.completed? = none := by rw [completed?, hcandidates]
    have hstays : completion.extend (front ++ completion.fragment) =
        front ++ completion.fragment := by
      rw [extend, hnone]
      split <;> simp_all
    rw [hstays]
    exact ⟨Text.beginsWith_iff.mpr List.prefix_rfl, .nothing⟩
  | [only] =>
    have hsome : completion.completed? =
        some (only ++ if Text.endsWith "/" only then "" else " ") := by
      simp only [completed?, hcandidates]
      split <;> simp
    obtain ⟨rest, rfl⟩ := Text.beginsWith_iff_exists.mp (hbegin only (by simp [hcandidates]))
    obtain ⟨heq, hlonger⟩ := extend_of_completed? front hfragment hkept hsome
      (Text.beginsWith_iff_exists.mpr ⟨_, String.append_assoc⟩)
    rw [heq]
    refine ⟨hlonger, ?_⟩
    rw [← String.append_assoc]
    exact .whole _
  | first :: second :: others =>
    have hsome : completion.completed? = some (commonOpening (first :: second :: others)) := by
      rw [completed?, hcandidates]
    have hname : Text.beginsWith name (commonOpening (first :: second :: others)) := by
      rw [Text.beginsWith_iff, prefix_commonOpening_iff (by simp), ← hcandidates]
      exact fun candidate hcandidate => Text.beginsWith_iff.mp (hbegin candidate hcandidate)
    obtain ⟨heq, hlonger⟩ := extend_of_completed? front hfragment hkept hsome hname
    rw [heq]
    exact ⟨hlonger, .common (by simp) (isLongestOpening_append _ (by simp))⟩

end

/-! ## The parts of a line -/

/-- A line with its last word parted: `front` stands before the word, `way` is what stays of it as
it was typed, and `name` what is completed. -/
structure Parts (input : String) (kind : Kind) (front way name : String) : Prop where
  /-- The last word has no blank, and a blank stands before it unless the line begins with it. -/
  word : Text.IsLastPart Text.isBlank input.toList front.toList (way ++ name).toList
  /-- The name of a command is completed if there is no word before. -/
  first : kind = .command ↔ ∀ c ∈ front.toList, Text.isBlank c
  command : kind = .command → way = ""
  /-- Of a path, all up to the last slash stays. -/
  path : kind = .path → Text.IsLastPart (· == '/') (way ++ name).toList way.toList name.toList

section
variable (files : FileSystem) (directory home : String) {input : String}

/-- A line without a blank after its first word ends in the name of a command, and is completed so.
-/
theorem exists_parts_command (h : ¬ (Text.dropBlank input.toList).any Text.isBlank) :
    ∃ front name, Parts input .command front "" name ∧
      ofInput files directory home input = ofCommandName name := by
  have hinput : input.toList = input.toList.takeWhile Text.isBlank ++ Text.dropBlank input.toList :=
    List.takeWhile_append_dropWhile.symm
  have hblanks : ∀ c ∈ input.toList.takeWhile Text.isBlank, Text.isBlank c :=
    fun c hc => List.mem_takeWhile_imp hc
  refine ⟨String.ofList (input.toList.takeWhile Text.isBlank),
    String.ofList (Text.dropBlank input.toList), ⟨?_, ?_, fun _ => rfl, nofun⟩, ?_⟩
  · refine ⟨by simpa using hinput, ?_, fun c hc => ?_⟩
    · simpa using h
    · rw [String.toList_ofList] at hc
      exact hblanks c (List.mem_of_getLast? hc)
  · simpa using hblanks
  · rw [ofInput, if_neg h]

/-- A line with a blank after its first word ends in a path, and is completed below the directory
part of that path. -/
theorem exists_parts_path (h : (Text.dropBlank input.toList).any Text.isBlank) :
    ∃ front way name, Parts input .path front way name ∧
      ofInput files directory home input = ofPath files directory home (way ++ name) := by
  have hinput : input.toList = input.toList.takeWhile Text.isBlank ++ Text.dropBlank input.toList :=
    List.takeWhile_append_dropWhile.symm
  generalize input.toList.takeWhile Text.isBlank = blanks at hinput
  have hword : Text.IsLastPart Text.isBlank (Text.dropBlank input.toList)
      ((Text.dropBlank input.toList).reverse.dropWhile (!Text.isBlank ·)).reverse
      (lastWord (Text.dropBlank input.toList)) := Text.isLastPart_iff.mpr ⟨rfl, rfl⟩
  generalize hfragment : lastWord (Text.dropBlank input.toList) = word at hword
  generalize ((Text.dropBlank input.toList).reverse.dropWhile (!Text.isBlank ·)).reverse = front
    at hword
  -- There is a word before the last one, so that not only blanks stand before it.
  obtain ⟨first, others, rfl⟩ : ∃ first others, front = first :: others := by
    refine List.exists_cons_of_ne_nil ?_
    rintro rfl
    obtain ⟨c, hc, hblank⟩ := List.any_eq_true.mp h
    rw [hword.eq] at hc
    simp [hword.none c hc] at hblank
  have hhead : (Text.dropBlank input.toList).head? = some first := by
    rw [hword.eq]
    rfl
  have hfirst : Text.isBlank first = false := Text.isBlank_of_head?_dropBlank hhead
  have hname : Text.IsLastPart (· == '/') word (splitName word).1 (splitName word).2 :=
    Text.isLastPart_iff.mpr ⟨rfl, rfl⟩
  refine ⟨String.ofList (blanks ++ first :: others), String.ofList (splitName word).1,
    String.ofList (splitName word).2, ⟨?_, ?_, nofun, fun _ => ?_⟩, ?_⟩
  · have hjoined : (String.ofList (splitName word).1 ++ String.ofList (splitName word).2).toList =
        word := by simpa using hname.eq.symm
    rw [hjoined, String.toList_ofList]
    refine ⟨by rw [hinput, hword.eq, List.append_assoc], hword.none, fun c hc => ?_⟩
    rw [List.getLast?_append_of_ne_nil _ (by simp)] at hc
    exact hword.last c hc
  · refine iff_of_false nofun fun hblank => ?_
    simp [hblank first (by simp)] at hfirst
  · simpa [← hname.eq] using hname
  · rw [ofInput, if_pos h, hfragment, ← String.ofList_append, ← hname.eq]

/-- Where paths are offered, the line ends in a path, and is completed as one. -/
theorem exists_parts_of_kind (h : (ofInput files directory home input).kind = .path) :
    ∃ front way name, Parts input .path front way name ∧
      ofInput files directory home input = ofPath files directory home (way ++ name) := by
  by_cases hblank : (Text.dropBlank input.toList).any Text.isBlank
  · exact exists_parts_path files directory home hblank
  · obtain ⟨front, name, -, hname⟩ := exists_parts_command files directory home hblank
    rw [hname] at h
    cases h

end

/-- A line is what stands before its last word and that word. -/
theorem Parts.input_eq {input front way name : String} {kind : Kind}
    (h : Parts input kind front way name) : input = front ++ (way ++ name) := by
  rw [← String.toList_inj, String.toList_append]
  exact h.word.eq

/-! ## Candidates -/

/-- The names offered are those that begin with what is typed and are names of commands, which
`Command.parse?` decides. -/
theorem mem_ofCommandName_iff {name candidate : String} (args : List String) :
    candidate ∈ (ofCommandName name).candidates ↔
      (Command.parse? candidate args).isSome ∧ Text.beginsWith name candidate := by
  have hknown : candidate ∈ Command.names ↔ (Command.parse? candidate args).isSome := by
    rw [Option.isSome_iff_ne_none, ne_eq, Command.parse?_eq_none_iff, not_not]
  rw [← hknown]
  exact List.mem_filter

/-- A line that is completed in place of its first word. -/
theorem extends_ofCommandName (front name : String) :
    Text.beginsWith (front ++ name) ((ofCommandName name).extend (front ++ name)) ∧
      Extends (front ++ name) (front ++ "") (ofCommandName name).candidates
        ((ofCommandName name).extend (front ++ name)) := by
  have hfragment : (ofCommandName name).fragment = name := rfl
  have hkept : (ofCommandName name).kept = "" := rfl
  have hbegin : ∀ candidate ∈ (ofCommandName name).candidates, Text.beginsWith name candidate :=
    fun candidate hcandidate => ((mem_ofCommandName_iff []).mp hcandidate).2
  have hextends := extends_extend front (hfragment.trans String.empty_append.symm) hkept hbegin
  rwa [hfragment] at hextends

/-- What an entry is shown as begins with all that its name begins with. -/
theorem beginsWith_display {name : String} {row : Listed} (h : Text.beginsWith name row.name) :
    Text.beginsWith name row.display := by
  obtain ⟨rest, hrest⟩ := Text.beginsWith_iff_exists.mp h
  refine Text.beginsWith_iff_exists.mpr ?_
  rw [Listed.display, hrest]
  split
  · exact ⟨rest ++ "/", String.append_assoc⟩
  · exact ⟨rest, rfl⟩

section
variable {files : FileSystem} {directory home way name : String}
  (h : Text.IsLastPart (· == '/') (way ++ name).toList way.toList name.toList)
include h

/-- Splitting a word finds the part up to the last slash again. -/
theorem splitName_eq : splitName (way ++ name).toList = (way.toList, name.toList) := by
  obtain ⟨hway, hname⟩ := Text.isLastPart_iff.mp h
  exact Prod.ext hway.symm hname.symm

/-- What is kept of a path is its directory part. -/
theorem kept_ofPath : (ofPath files directory home (way ++ name)).kept = way := by
  simp only [kept, ofPath, splitName_eq h, String.ofList_toList]

/-- The candidates are the entries of the directory to which the way of the word leads whose names
begin with the name that was typed. -/
theorem mem_ofPath_iff {candidate : String} :
    candidate ∈ (ofPath files directory home (way ++ name)).candidates ↔
      ∃ rows, files.list (searched directory home way) = .ok rows ∧
        ∃ row ∈ rows, Text.beginsWith name row.name ∧ candidate = row.display := by
  simp only [ofPath, splitName_eq h, String.ofList_toList]
  cases hrows : files.list (searched directory home way) with
  | error fault => simp
  | ok rows =>
    constructor
    · intro hcandidate
      obtain ⟨row, hrow, rfl⟩ := List.mem_map.mp hcandidate
      obtain ⟨hthere, hname⟩ := List.mem_filter.mp hrow
      exact ⟨rows, rfl, row, hthere, hname, rfl⟩
    · rintro ⟨_, hrows, row, hthere, hname, rfl⟩
      cases hrows
      exact List.mem_map_of_mem (List.mem_filter.mpr ⟨hthere, hname⟩)

end

/-- A line that is completed at the end of a path. -/
theorem extends_ofPath (files : FileSystem) (directory home front : String) {way name : String}
    (h : Text.IsLastPart (· == '/') (way ++ name).toList way.toList name.toList) :
    let completion := ofPath files directory home (way ++ name)
    let input := front ++ (way ++ name)
    Text.beginsWith input (completion.extend input) ∧
      Extends input (front ++ way) completion.candidates (completion.extend input) := by
  intro completion input
  have hfragment : completion.fragment = way ++ name := by simp only [completion, ofPath]
  have hbegin : ∀ candidate ∈ completion.candidates, Text.beginsWith name candidate := by
    intro candidate hcandidate
    obtain ⟨rows, -, row, -, hname, rfl⟩ := (mem_ofPath_iff h).mp hcandidate
    exact beginsWith_display hname
  have hextends := extends_extend front hfragment (kept_ofPath h) hbegin
  rwa [hfragment] at hextends

/-- **What becomes of a line when its end is completed.** It goes on as it was typed. Without a
candidate for its end it stays, one candidate is written out, and of several as much is written as
all resulting lines begin with. In place of its first word the names of commands that begin with
that word are the candidates, in order. -/
theorem extend_ofInput (files : FileSystem) (directory home input : String) :
    let completion := ofInput files directory home input
    ∃ front way name, Parts input completion.kind front way name ∧
      completion.fragment = way ++ name ∧
      Text.beginsWith input (completion.extend input) ∧
      Extends input (front ++ way) completion.candidates (completion.extend input) ∧
      (completion.kind = .command → completion.candidates.Pairwise (· < ·) ∧
        ∀ args candidate, candidate ∈ completion.candidates ↔
          (Command.parse? candidate args).isSome ∧ Text.beginsWith name candidate) := by
  intro completion
  by_cases hblank : (Text.dropBlank input.toList).any Text.isBlank
  · obtain ⟨front, way, name, hparts, hpath⟩ := exists_parts_path files directory home hblank
    have hcompletion : completion = ofPath files directory home (way ++ name) := hpath
    obtain ⟨hlonger, hextends⟩ := extends_ofPath files directory home front (hparts.path rfl)
    rw [← hparts.input_eq] at hlonger hextends
    rw [hcompletion]
    exact ⟨front, way, name, hparts, rfl, hlonger, hextends, nofun⟩
  · obtain ⟨front, name, hparts, hname⟩ := exists_parts_command files directory home hblank
    have hcompletion : completion = ofCommandName name := hname
    have hinput : input = front ++ name := by rw [hparts.input_eq, String.empty_append]
    obtain ⟨hlonger, hextends⟩ := extends_ofCommandName front name
    rw [← hinput] at hlonger hextends
    rw [hcompletion]
    refine ⟨front, "", name, hparts, String.empty_append.symm, hlonger, hextends, fun _ => ?_⟩
    exact ⟨Command.pairwise_names.filter _, fun args _ => mem_ofCommandName_iff args⟩

end Completion

end PocketShell
