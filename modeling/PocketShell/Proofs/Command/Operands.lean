import PocketShell.Proofs.Command.Act
import PocketShell.Storage.Memory

/-!
# Operands one after another

Five commands take as many operands as there are and go on with the next when one fails:
`Command.Batch` lists them. What such a command shows is one text for each operand that has
something to show, one below the other, and no text is empty (`Command.Batch.ne_empty_of_take`).
Main statement: `Command.Batch.run_append`, operands that are taken at once are taken as in two
runs, and as in a run for each of them.
-/

namespace PocketShell

/-! ## Texts one below the other -/

/-- Texts one below the other; one that is empty takes no line. -/
def stacked (texts : List String) : String :=
  "\n".intercalate (texts.filter (· ≠ ""))

/-- Texts of which none is empty stand one below the other, each on a line of its own. -/
theorem stacked_of_forall_ne {texts : List String} (h : ∀ text ∈ texts, text ≠ "") :
    stacked texts = "\n".intercalate texts := by
  rw [stacked, List.filter_eq_self.mpr]
  simpa using h

/-- Texts one below the other are empty exactly if each of them is: a single line break would
already show. -/
theorem stacked_eq_empty_iff {texts : List String} :
    stacked texts = "" ↔ texts.filter (· ≠ "") = [] := by
  constructor
  · intro h
    cases hshown : texts.filter (· ≠ "") with
    | nil => rfl
    | cons text others =>
      have htext : text ≠ "" := by
        have hmem : text ∈ texts.filter (· ≠ "") := by rw [hshown]; exact .head _
        simpa using (List.mem_filter.mp hmem).2
      rw [stacked, hshown] at h
      cases others with
      | nil => exact absurd (by simpa using h) htext
      | cons other others => simp at h
  · intro h
    rw [stacked, h, String.intercalate_nil]

/-- Of two texts an empty one takes no line. -/
theorem stacked_pair (text other : String) :
    stacked [text, other] =
      if text = "" then other else if other = "" then text else text ++ "\n" ++ other := by
  by_cases htext : text = ""
  · by_cases hother : other = "" <;> simp [stacked, htext, hother]
  · by_cases hother : other = "" <;> simp [stacked, htext, hother]

/-- One text stands as it is. -/
theorem stacked_singleton (text : String) : stacked [text] = text := by
  by_cases htext : text = "" <;> simp [stacked, htext]

/-- Texts may be put below one another part by part. -/
theorem stacked_append (texts others : List String) :
    stacked (texts ++ others) = stacked [stacked texts, stacked others] := by
  rw [stacked_pair, stacked, List.filter_append]
  split
  · next htexts => rw [stacked_eq_empty_iff.mp htexts, List.nil_append, stacked]
  · next htexts =>
    split
    · next hothers => rw [stacked_eq_empty_iff.mp hothers, List.append_nil, stacked]
    · next hothers =>
      rw [stacked_eq_empty_iff] at htexts hothers
      rw [String.intercalate_append_of_ne_nil htexts hothers, stacked, stacked]

/-! ## The commands -/

namespace Command

variable {σ : Type}

/-- A command that takes operands one after another. -/
inductive Batch where
  | export
  | unset
  | mkdir
  | touch
  | rm
  deriving DecidableEq, Repr

namespace Batch

/-- The command with its operands. -/
def command : Batch → List String → Command
  | .export => .export
  | unset => .unset
  | mkdir => .mkdir
  | touch => .touch
  | rm => .rm

/-- Takes one operand. -/
def take : Batch → Context σ → String → Option String × Context σ
  | .export => assignVariable
  | unset => discardVariable
  | mkdir => makeDirectory
  | touch => makeFile
  | rm => removeFile

variable (batch : Batch)

/-- There is something to see of what an operand shows. -/
theorem ne_empty_of_take {context : Context σ} {operand message : String}
    (h : (batch.take context operand).1 = some message) : message ≠ "" := by
  cases batch with
  | «export» =>
    simp only [take, assignVariable, Environment.assign] at h
    split at h
    · cases h; simp
    · split at h
      · obtain ⟨value, -, rfl⟩ := Option.map_eq_some_iff.mp h
        simp
      · split at h
        · cases h; simp
        · cases h
  | unset =>
    simp only [take, discardVariable, Environment.discard] at h
    split at h
    · cases h; simp
    · split at h
      · cases h; simp
      · cases h
  | mkdir | touch | rm =>
    simp only [take, makeDirectory, makeFile, removeFile] at h
    obtain ⟨fault, -, rfl⟩ := Option.map_eq_some_iff.mp h
    simp

/-- Of the messages that operands leave none is empty. -/
theorem ne_empty_of_mem_eachOperand {context : Context σ} {operands : List String} :
    ∀ message ∈ (eachOperand batch.take operands context).1, message ≠ "" := by
  induction operands generalizing context with
  | nil => exact nofun
  | cons operand operands ih =>
    intro message hmessage
    rcases List.mem_append.mp hmessage with hfirst | hothers
    · exact batch.ne_empty_of_take (Option.mem_toList.mp hfirst)
    · exact ih message hothers

end Batch

/-- Operands that are taken at once are taken in two parts. -/
theorem eachOperand_append (take : Context σ → String → Option String × Context σ)
    (operands others : List String) (context : Context σ) :
    let first := eachOperand take operands context
    let second := eachOperand take others first.2
    eachOperand take (operands ++ others) context = (first.1 ++ second.1, second.2) := by
  induction operands generalizing context with
  | nil => rfl
  | cons operand operands ih =>
    simp only [List.cons_append, eachOperand, ih, List.append_assoc]

namespace Batch

variable [Storage σ] (batch : Batch)

/-- A command with operands shows what there is to show of them, one below the other. -/
theorem run_eq (now : Calendar.Moment) (context : Context σ) {operands : List String}
    (h : operands ≠ []) :
    (batch.command operands).run now context =
      (.ok (.text (stacked (eachOperand batch.take operands context).1)),
        (eachOperand batch.take operands context).2) := by
  obtain ⟨operand, others, rfl⟩ := List.exists_cons_of_ne_nil h
  rw [stacked_of_forall_ne batch.ne_empty_of_mem_eachOperand]
  cases batch <;> simp only [command, take, run, done, onOperands]

/-- The command is run for each operand alone, one run after the other: what the runs show, and
the context after them. -/
inductive Apart (now : Calendar.Moment) : Context σ → List String → List String → Context σ → Prop
  | none (context : Context σ) : Apart now context [] [] context
  | next {before between after : Context σ} {operand text : String} {operands texts : List String} :
      (batch.command [operand]).run now before = (.ok (.text text), between) →
      Apart now between operands texts after →
      Apart now before (operand :: operands) (text :: texts) after

/-- Operands that are taken at once are taken as in a run for each of them. -/
theorem exists_apart (now : Calendar.Moment) (context : Context σ) (operands : List String) :
    ∃ texts, batch.Apart now context operands texts
        (eachOperand batch.take operands context).2 ∧
      stacked texts = stacked (eachOperand batch.take operands context).1 := by
  induction operands generalizing context with
  | nil => exact ⟨[], .none context, rfl⟩
  | cons operand operands ih =>
    have hcut := eachOperand_append batch.take [operand] operands context
    have hfirst := batch.run_eq now context (List.cons_ne_nil operand [])
    obtain ⟨texts, hothers, htexts⟩ := ih (eachOperand batch.take [operand] context).2
    rw [List.singleton_append] at hcut
    rw [hcut]
    refine ⟨_, .next hfirst hothers, ?_⟩
    rw [← List.singleton_append, stacked_append, stacked_append, stacked_singleton, htexts]

/-- **Operands compose.** A command that takes operands one after another leaves, with all of them
at once, what it leaves if it is run with the first ones and then with the others, and shows the
texts of the two runs, one below the other. So it is as if it were run for each operand alone: each
is taken, whatever became of those before it, and what there is to show of it is shown once and in
its turn. -/
theorem run_append (now later : Calendar.Moment) (context : Context σ)
    {operands others : List String} (hoperands : operands ≠ []) (hothers : others ≠ []) :
    let whole := (batch.command (operands ++ others)).run now context
    let first := (batch.command operands).run now context
    let second := (batch.command others).run later first.2
    (whole.2 = second.2 ∧
      ∃ shown below, first.1 = .ok (.text shown) ∧ second.1 = .ok (.text below) ∧
        whole.1 = .ok (.text (stacked [shown, below]))) ∧
    ∃ texts, batch.Apart now context (operands ++ others) texts whole.2 ∧
      whole.1 = .ok (.text (stacked texts)) := by
  intro whole first second
  have hall : operands ++ others ≠ [] := List.append_ne_nil_of_left_ne_nil hoperands others
  have hwhole : whole = _ := batch.run_eq now context hall
  have hfirst : first = _ := batch.run_eq now context hoperands
  have hsecond : second = _ := batch.run_eq later first.2 hothers
  have hcut := eachOperand_append batch.take operands others context
  obtain ⟨texts, hapart, htexts⟩ := batch.exists_apart now context (operands ++ others)
  rw [hfirst] at hsecond
  rw [hwhole, hfirst, hsecond]
  refine ⟨⟨?_, _, _, rfl, rfl, ?_⟩, texts, hapart, ?_⟩
  · rw [hcut]
  · rw [hcut, stacked_append]
  · rw [htexts]

/-- A directory that is made twice, one within it, and one that has nowhere to be. -/
theorem run_append_of_mkdir :
    let context : Context MemoryStore :=
      { files := .empty, login := .start "user" "/" "/", store := ⟨∅⟩, keys := .ofStem "shell" }
    let whole := (mkdir.command (["a", "a"] ++ ["a/b", "x/y"])).run ⟨0, 0⟩ context
    let first := (mkdir.command ["a", "a"]).run ⟨0, 0⟩ context
    let second := (mkdir.command ["a/b", "x/y"]).run ⟨0, 0⟩ first.2
    ["a", "a"] ≠ [] ∧ ["a/b", "x/y"] ≠ [] ∧ whole.2 = second.2 ∧
      whole.1 = .ok (.text (stacked ["mkdir: cannot create directory 'a': File exists",
        "mkdir: cannot create directory 'x/y': No such file or directory"])) := by
  intro context whole first second
  have hoperands : ["a", "a"] ≠ [] := by decide
  have hothers : ["a/b", "x/y"] ≠ [] := by decide
  obtain ⟨⟨hafter, shown, below, hfirst, hsecond, hwhole⟩, -⟩ :=
    mkdir.run_append ⟨0, 0⟩ ⟨0, 0⟩ context hoperands hothers
  have htwice : (onOperands makeDirectory ["a", "a"] context).1 =
      .text "mkdir: cannot create directory 'a': File exists" := by
    decide +kernel
  have hnowhere : (onOperands makeDirectory ["a/b", "x/y"] first.2).1 =
      .text "mkdir: cannot create directory 'x/y': No such file or directory" := by
    decide +kernel
  obtain rfl := Outcome.text.inj (Except.ok.inj (hfirst.symm.trans (congrArg Except.ok htwice)))
  obtain rfl := Outcome.text.inj (Except.ok.inj (hsecond.symm.trans (congrArg Except.ok hnowhere)))
  exact ⟨hoperands, hothers, hafter, hwhole⟩

end Batch

end Command

end PocketShell
