import PocketShell.Proofs.Tree.Document

/-!
# What is read can be written and read again

A reader goes no deeper into a text than `Node.maxNesting` directories, and merges the entries of
one name, so what it reads is within the bounds of what is read back from its written form.
`Node.Reading.WithinLimit` is the invariant of the reader: what it has read so far, and the
directories that are under way, nest no deeper than the limit. Main statement:
`Node.written_read_back`.
-/

namespace PocketShell.Node

/-! ## The depth of entries -/

/-- Entries are at most so deep if each of them is. -/
theorem entriesDepth_le_iff {entries : Named Node} {bound : Nat} :
    entriesDepth entries ≤ bound ↔ ∀ entry ∈ entries, entry.2.depth ≤ bound := by
  induction entries with
  | nil => simp [entriesDepth]
  | cons entry rest ih =>
    obtain ⟨name, node⟩ := entry
    rw [entriesDepth, Nat.max_le, ih, List.forall_mem_cons]

/-- Of entries some are not deeper than all. -/
theorem entriesDepth_le_of_subset {first second : Named Node} (h : first ⊆ second) :
    entriesDepth first ≤ entriesDepth second := by
  rw [entriesDepth_le_iff]
  intro entry hentry
  exact entriesDepth_le_iff.mp (Nat.le_refl _) entry (h hentry)

mutual

/-- Merging names takes directories away, and puts none inside another. -/
theorem depth_tidy_le : ∀ node : Node, node.tidy.depth ≤ node.depth
  | file _ => Nat.le_refl _
  | directory entries => by
    have hmerge : entriesDepth (Named.merge (tidyEntries entries)) ≤
        entriesDepth (tidyEntries entries) :=
      entriesDepth_le_of_subset fun _ => Named.mem_of_mem_merge
    have hentries := entriesDepth_tidyEntries_le entries
    simp only [tidy, depth]
    omega

/-- Entries do not become deeper when of equal names the last is kept. -/
theorem entriesDepth_tidyEntries_le :
    ∀ entries : List (String × Node), entriesDepth (tidyEntries entries) ≤ entriesDepth entries
  | [] => Nat.le_refl _
  | (_, node) :: rest => by
    have hnode := depth_tidy_le node
    have hrest := entriesDepth_tidyEntries_le rest
    simp only [tidyEntries, entriesDepth]
    omega

end

/-! ## The reader stays within the limit -/

/-- With the entries read so far, no directory under way nests deeper than the limit; the innermost
comes first. -/
def Fits : List Around → Prop
  | [] => True
  | inner :: around =>
    around.length + 1 + entriesDepth inner.entries ≤ maxNesting ∧ Fits around

/-- No more directories are under way than may be nested. -/
theorem Fits.length_le {around : List Around} (h : Fits around) : around.length ≤ maxNesting := by
  cases around with
  | nil => exact Nat.zero_le _
  | cons inner around =>
    obtain ⟨hinner, -⟩ := h
    rw [List.length_cons]
    omega

namespace Reading

/-- Nothing that has been read nests deeper than the limit, where it stands. -/
def WithinLimit : Reading → Prop
  | .node around => Fits around
  | .opened around => around.length < maxNesting ∧ Fits around
  | .next entries around | .named entries _ around | .entry entries around =>
    around.length + 1 + entriesDepth entries ≤ maxNesting ∧ Fits around
  | .done read => read.depth ≤ maxNesting

/-- A node that has been read and is not too deep leaves the reading within the limit. -/
theorem withinLimit_after {read : Node} {around : List Around} (h : Fits around)
    (hread : around.length + read.depth ≤ maxNesting) : (after read around).WithinLimit := by
  cases around with
  | nil =>
    rw [List.length_nil, Nat.zero_add] at hread
    exact hread
  | cons inner around =>
    obtain ⟨hinner, haround⟩ := h
    rw [List.length_cons] at hread
    refine ⟨?_, haround⟩
    simp only [entriesDepth]
    omega

/-- A token leaves a reading within the limit: a brace is taken only while there is room for another
directory. -/
theorem withinLimit_step {reading after : Reading} {token : Json.Token}
    (h : reading.WithinLimit) (hstep : reading.step token = some after) : after.WithinLimit := by
  unfold step at hstep
  split at hstep
  · -- A file has no depth, so it fits wherever a node may stand.
    cases hstep
    exact withinLimit_after h h.length_le
  · split at hstep
    · next hlength =>
      cases hstep
      exact ⟨hlength, h⟩
    · cases hstep
  · cases hstep
    obtain ⟨hlength, haround⟩ := h
    exact withinLimit_after haround hlength
  · cases hstep
    exact h
  · cases hstep
    exact h
  · cases hstep
    exact h
  · cases hstep
    exact h
  · next entries around =>
    cases hstep
    obtain ⟨hentries, haround⟩ := h
    have hreverse : entriesDepth entries.reverse ≤ entriesDepth entries :=
      entriesDepth_le_of_subset fun _ => List.mem_reverse.mp
    refine withinLimit_after haround ?_
    rw [depth]
    omega
  · cases hstep

/-- Whatever tokens are taken, the reader stays within the limit. -/
theorem withinLimit_foldlM {tokens : List Json.Token} {reading after : Reading}
    (h : reading.WithinLimit) (hread : tokens.foldlM step reading = some after) :
    after.WithinLimit := by
  induction tokens generalizing reading with
  | nil =>
    cases hread
    exact h
  | cons token tokens ih =>
    rw [List.foldlM_cons] at hread
    obtain ⟨next, hstep, hrest⟩ := Option.bind_eq_some_iff.mp hread
    exact ih (withinLimit_step h hstep) hrest

end Reading

/-! ## What is read -/

section
variable {text : String} {node : Node}

/-- What is read from a text is the tidied form of a tree within the limit. -/
theorem exists_tidy_of_ofJson? (h : ofJson? text = some node) :
    ∃ read : Node, read.depth ≤ maxNesting ∧ node = read.tidy := by
  obtain ⟨tokens, -, htokens⟩ := Option.bind_eq_some_iff.mp h
  unfold ofTokens? at htokens
  split at htokens
  · next read hread =>
    cases htokens
    have hstart : (Reading.node []).WithinLimit := trivial
    exact ⟨read, Reading.withinLimit_foldlM hstart hread, rfl⟩
  · cases htokens

/-- A directory that is read holds no name twice. -/
theorem distinct_of_ofJson? (h : ofJson? text = some node) : node.Distinct := by
  obtain ⟨read, -, rfl⟩ := exists_tidy_of_ofJson? h
  exact read.distinct_tidy

/-- Directories that are read nest no deeper than the limit. -/
theorem depth_le_of_ofJson? (h : ofJson? text = some node) : node.depth ≤ maxNesting := by
  obtain ⟨read, hdepth, rfl⟩ := exists_tidy_of_ofJson? h
  exact Nat.le_trans (depth_tidy_le read) hdepth

end

/-- **Trees are read back as they were written**, if their directories nest at most 127 deep, and
refused if they nest deeper. Whatever a text is read as, the written form of that is read as the
same. -/
theorem written_read_back :
    (∀ node : Node, node.Distinct →
      ofJson? node.toJson = if node.depth ≤ 127 then some node else none) ∧
    ∀ (text : String) (node : Node), ofJson? text = some node →
      node.Distinct ∧ node.depth ≤ 127 ∧ ofJson? node.toJson = some node := by
  have hwritten : ∀ node : Node, node.Distinct →
      ofJson? node.toJson = if node.depth ≤ 127 then some node else none := by
    intro node hnode
    have hread := ofJson?_toJson node
    rwa [tidy_eq_self hnode] at hread
  refine ⟨hwritten, fun text node hread => ?_⟩
  have hdistinct := distinct_of_ofJson? hread
  have hdepth : node.depth ≤ 127 := depth_le_of_ofJson? hread
  exact ⟨hdistinct, hdepth, by rw [hwritten node hdistinct, if_pos hdepth]⟩

/-- Directories in one another, under the names, and an empty one inside the last. -/
def chain : List String → Node
  | [] => directory []
  | name :: names => directory [(name, chain names)]

/-- In a chain every directory has one name at most. -/
theorem distinct_chain : ∀ names : List String, (chain names).Distinct
  | [] => ⟨List.nodup_nil, trivial⟩
  | name :: names => ⟨by simp [Named.names], distinct_chain names, trivial⟩

/-- A chain is deeper by one than it has names. -/
theorem depth_chain : ∀ names : List String, (chain names).depth = names.length + 1
  | [] => rfl
  | _ :: names => by
    rw [chain, depth, entriesDepth, entriesDepth, depth_chain names, Nat.max_zero, Nat.add_comm]
    rfl

/-- 127 directories in one another are read back and 128 are not; a name that comes twice in a text
is written once. -/
theorem written_read_back_of_chain :
    ofJson? (chain (List.replicate 126 "é\n")).toJson = some (chain (List.replicate 126 "é\n")) ∧
      ofJson? (chain (List.replicate 127 "é\n")).toJson = none ∧
      let text := "\x7b\"a\":\"\\u0001\", " ++ "\"b\":\x7b\x7d, \"a\":\x7b\"c\":\"\"\x7d\x7d"
      ∃ node, ofJson? text = some node ∧
        node.toJson = "\x7b\"a\":\x7b\"c\":\"\"\x7d,\"b\":\x7b\x7d\x7d" ∧
        ofJson? node.toJson = some node := by
  refine ⟨?_, ?_, ?_⟩
  · have hread := written_read_back.1 _ (distinct_chain (List.replicate 126 "é\n"))
    rwa [depth_chain, List.length_replicate, if_pos (by decide)] at hread
  · have hread := written_read_back.1 _ (distinct_chain (List.replicate 127 "é\n"))
    rwa [depth_chain, List.length_replicate, if_neg (by decide)] at hread
  · intro text
    have hwritten : (ofJson? text).map toJson =
        some "\x7b\"a\":\x7b\"c\":\"\"\x7d,\"b\":\x7b\x7d\x7d" := by decide +kernel
    obtain ⟨node, hread, hnode⟩ := Option.map_eq_some_iff.mp hwritten
    exact ⟨node, hread, hnode, (written_read_back.2 text node hread).2.2⟩

end PocketShell.Node
