import PocketShell.Proofs.Completion.Extension
import PocketShell.Proofs.Path.Home
import PocketShell.Proofs.Tree.Drawing
import PocketShell.Session.Basic

/-!
# What a completed path leads to

The candidates for the end of a path are entries of a directory, and a command that is given the
completed path looks it up anew, with `~` for the home directory. Main statement:
`Session.resolve_completed_iff`, it finds the entry that was offered, unless that entry is itself
called `~` and no way to it was typed.
-/

namespace PocketShell

/-! ## Rows of a listing as paths -/

namespace Listed

variable {row : Listed}

/-- An entry is shown as one piece, with an empty one after it if it is a directory. -/
theorem pieces_display (h : Path.IsComponent row.name) :
    Text.pieces '/' row.display = row.name :: if row.isDirectory then [""] else [] := by
  rw [display]
  split
  · rw [Path.pieces_append_slash, h.pieces_eq, List.singleton_append]
  · exact h.pieces_eq

/-- A row as it is shown leads one step down, to what it is the row of. -/
theorem foldl_follow_display (h : Path.IsComponent row.name) (place : List String) :
    (Text.pieces '/' row.display).foldl Path.follow place = place ++ [row.name] := by
  rw [pieces_display h, List.foldl_cons, Path.follow_of_isComponent h]
  split
  · rw [List.foldl_cons, Path.follow_empty, List.foldl_nil]
  · rfl

/-- What an entry is shown as ends in a slash exactly if it is a directory: no name has a slash. -/
theorem endsWith_display (h : Path.IsComponent row.name) :
    Text.endsWith "/" row.display ↔ row.isDirectory := by
  rw [Text.endsWith_iff, display]
  split
  · next hdirectory =>
    rw [String.toList_append]
    exact iff_of_true (List.suffix_append _ _) hdirectory
  · next hfile =>
    refine iff_of_false (fun hslash => ?_) hfile
    exact h.2.2.2 (hslash.subset List.mem_cons_self)

/-- A row as it is shown is a relative path. -/
theorem not_beginsWith_display (h : Path.IsComponent row.name) :
    ¬ Text.beginsWith "/" row.display := by
  rw [display]
  split
  · exact h.not_beginsWith "/"
  · simpa using h.not_beginsWith ""

/-- Only the name `~` is taken for the home directory. -/
theorem expandHome_display (h : Path.IsComponent row.name) (hname : row.name ≠ "~")
    (home : String) : Path.expandHome home row.display = row.display := by
  have hfirst : (Text.pieces '/' row.display).head? = some row.name := by
    rw [pieces_display h, List.head?_cons]
  refine Path.expandHome_eq_self (fun halone => hname ?_) fun hbefore => hname ?_
  · rw [halone] at hfirst
    exact (Option.some.inj hfirst).symm
  · obtain ⟨rest, hrest⟩ := Text.beginsWith_iff_exists.mp hbefore
    have hpieces : Text.pieces '/' ("~/" ++ rest) = Text.pieces '/' "~" ++ Text.pieces '/' rest :=
      Text.pieces_append '/' "~" rest
    rw [hrest, hpieces] at hfirst
    exact (Option.some.inj hfirst).symm

end Listed

/-- Only a directory is listed, and its rows are its entries. -/
theorem FileSystem.exists_of_list_eq_ok {files : FileSystem} {path : String} {rows : List Listed}
    (h : files.list path = .ok rows) :
    ∃ entries, files.lookup? path = some (.directory entries) ∧
      rows = entries.map fun entry => ⟨entry.1, entry.2.isDirectory⟩ := by
  rw [list] at h
  split at h
  · next entries hentries => cases h; exact ⟨entries, hentries, rfl⟩
  · cases h
  · cases h

namespace Completion

variable {directory home way : String} {row : Listed}

/-- What is typed before a name that is completed is nothing, or ends in a slash. -/
theorem eq_empty_or_exists_of_isLastPart {name : String}
    (h : Text.IsLastPart (· == '/') (way ++ name).toList way.toList name.toList) :
    way = "" ∨ ∃ front, way = front ++ "/" := by
  rcases List.eq_nil_or_concat' way.toList with hnil | ⟨front, last, hlast⟩
  · exact .inl (by simpa using hnil)
  · have hslash : last = '/' := by simpa using h.last last (by simp [hlast])
    refine .inr ⟨String.ofList front, ?_⟩
    rw [← String.toList_inj, hlast, hslash]
    simp

/-- The completed word leads to the row that was offered, from the directory that was searched. -/
theorem components_resolve_display (h : Path.IsComponent row.name)
    (hway : way = "" ∨ ∃ front, way = front ++ "/") (htilde : way = "" → row.name ≠ "~") :
    Path.components (Path.resolve directory (Path.expandHome home (way ++ row.display))) =
      Path.components (searched directory home way) ++ [row.name] := by
  rw [searched]
  split
  · next hnone =>
    rw [hnone, String.empty_append, Listed.expandHome_display h (htilde hnone),
      Path.components_resolve_eq, if_neg (Listed.not_beginsWith_display h),
      Listed.foldl_follow_display h]
  · next hsome =>
    obtain ⟨front, rfl⟩ := hway.resolve_left hsome
    rw [Path.components_resolve_expandHome_append, Listed.foldl_follow_display h]

/-- A row called `~` that is typed without a way is sought where the home directory is. -/
theorem components_resolve_tilde (h : row.name = "~") :
    Path.components (Path.resolve directory (Path.expandHome home row.display)) =
        Path.components directory ++ ["~"] ↔
      Path.components (Path.resolve directory (Path.expandHome home "~")) =
        Path.components directory ++ ["~"] := by
  rw [Listed.display, h]
  split
  · have hjoined : "~" ++ "/" = "~/" := rfl
    rw [hjoined]
    by_cases hhome : home = ""
    · -- Without a home directory `~/` is the root and `~` the current directory.
      have hroot : Path.components (Path.resolve directory "/") = [] := by
        rw [Path.components_resolve_eq]
        rfl
      have hcurrent : Path.components (Path.resolve directory "") = Path.components directory := by
        rw [Path.components_resolve_eq]
        exact Path.follow_empty _
      have hslash : Path.expandHome "" "~/" = "/" := by decide
      have hwhole : Path.expandHome "" "~" = "" := by decide
      rw [hhome, hslash, hwhole, hroot, hcurrent]
      simp
    · rw [Path.resolve_expandHome_slash hhome]
  · rfl

/-- The completed word leads to the row that was offered, unless it is `~` and stands for the home
directory. -/
theorem components_resolve_eq_iff (directory home : String) (h : Path.IsComponent row.name)
    (hway : way = "" ∨ ∃ front, way = front ++ "/") :
    let place := Path.components (searched directory home way) ++ [row.name]
    Path.components (Path.resolve directory (Path.expandHome home (way ++ row.display))) = place ↔
      (way = "" → row.name = "~" →
        Path.components (Path.resolve directory (Path.expandHome home "~")) = place) := by
  intro place
  by_cases htilde : way = "" ∧ row.name = "~"
  · obtain ⟨rfl, hname⟩ := htilde
    have hplace : place = Path.components directory ++ ["~"] := by
      simp only [place, searched, if_true, hname]
    rw [hplace, String.empty_append, components_resolve_tilde hname]
    simp [hname]
  · have hleads : Path.components (Path.resolve directory (Path.expandHome home
        (way ++ row.display))) = place :=
      components_resolve_display h hway fun hnone hname => htilde ⟨hnone, hname⟩
    exact iff_of_true hleads fun hnone hname => absurd ⟨hnone, hname⟩ htilde

end Completion

/-! ## The entry that was offered -/

namespace Session

variable {σ : Type} {session : Session σ} {input candidate : String}

/-- **What a completed path leads to.** In a tree in which every name can stand in a path for
itself, each candidate for the end of a path comes from an entry of the directory that was searched.
The completed word leads to that entry, and to a directory if and only if it ends in a slash, unless
the entry is called `~`, nothing was typed before it and `~` leads elsewhere; then it does not. -/
theorem resolve_completed_iff (hnames : session.files.root.Addressable)
    (hkind : (session.completion input).kind = .path)
    (hcandidate : candidate ∈ (session.completion input).candidates) :
    let way := (session.completion input).kept
    let directory := Completion.searched session.login.directory session.login.home way
    ∃ front name entries entry node, Completion.Parts input .path front way name ∧
      session.files.lookup? directory = some (.directory entries) ∧ (entry, node) ∈ entries ∧
      Text.beginsWith name entry ∧ candidate = (Listed.mk entry node.isDirectory).display ∧
      let path := Path.ofComponents (Path.components directory ++ [entry])
      ((session.resolve (way ++ candidate) = path ∧
          (session.files.isDirectory (session.resolve (way ++ candidate)) ↔
            Text.endsWith "/" candidate)) ↔
        (way = "" → entry = "~" → session.resolve "~" = path)) := by
  intro way directory
  obtain ⟨front, typed, name, hparts, hcompletion⟩ := Completion.exists_parts_of_kind _ _ _ hkind
  have htyped : way = typed := by
    rw [← Completion.kept_ofPath (hparts.path rfl), ← hcompletion]
    rfl
  have hmem : candidate ∈ (Completion.ofPath session.files session.login.directory
      session.login.home (typed ++ name)).candidates := hcompletion ▸ hcandidate
  obtain ⟨rows, hrows, row, hrow, hname, rfl⟩ :=
    (Completion.mem_ofPath_iff (hparts.path rfl)).mp hmem
  rw [← htyped] at hrows hparts
  obtain ⟨entries, hentries, rfl⟩ := FileSystem.exists_of_list_eq_ok hrows
  obtain ⟨⟨entry, node⟩, hentry, rfl⟩ := List.mem_map.mp hrow
  have hcomponent : Path.IsComponent entry :=
    (Node.entriesAddressable_iff.mp (hnames.find? hentries) _ hentry).1
  refine ⟨front, name, entries, entry, node, hparts, hentries, hentry, hname, rfl, ?_⟩
  intro path
  have hplace : ∀ other ∈ Path.components directory ++ [entry], Path.IsComponent other := by
    intro other hother
    rcases List.mem_append.mp hother with hother | hother
    · exact Path.isComponent_of_mem_components hother
    · rwa [List.mem_singleton.mp hother]
  have hchild : Path.resolve directory entry = path :=
    (Path.resolve_eq_ofComponents_iff hplace).mpr (Path.components_resolve hcomponent directory)
  have hdirectory : session.files.isDirectory path ↔
      Text.endsWith "/" (Listed.mk entry node.isDirectory).display := by
    rw [Listed.endsWith_display hcomponent, FileSystem.isDirectory, ← hchild,
      FileSystem.lookup?_resolve hentries hcomponent hentry, Option.any_some]
  have hresolve (word : String) : session.resolve word = path ↔
      Path.components (session.resolve word) = Path.components directory ++ [entry] :=
    Path.resolve_eq_ofComponents_iff hplace
  have hway := Completion.eq_empty_or_exists_of_isLastPart (hparts.path rfl)
  have hleads : session.resolve (way ++ (Listed.mk entry node.isDirectory).display) = path ↔
      (way = "" → entry = "~" → session.resolve "~" = path) := by
    simp only [hresolve]
    exact Completion.components_resolve_eq_iff _ _ hcomponent hway
  rw [← hleads]
  constructor
  · exact And.left
  · intro hfound
    exact ⟨hfound, hfound ▸ hdirectory⟩

/-- A session at the root of a tree that has a file called `~` there. -/
def besideTilde : Session MemoryStore where
  files :=
    { root := .directory [("home", .directory [("notes", .directory [])]), ("~", .file "hi")]
      rooted := rfl
      distinct := by simp [Node.Distinct, Node.EntriesDistinct, Named.names] }
  login := .start "user" "/home" "/"
  store := ⟨∅⟩
  keys := .ofStem "shell"
  hostname := "host"

/-- The tree of `besideTilde` is addressable: `~` is a name like any other. -/
theorem addressable_besideTilde : besideTilde.files.root.Addressable := by
  simp only [besideTilde, Node.Addressable, Node.EntriesAddressable]
  decide

/-- A directory in the home directory is found there. -/
theorem resolve_completed_of_home :
    let completion := besideTilde.completion "ls ~/no"
    besideTilde.files.root.Addressable ∧ completion.kind = .path ∧
      "notes/" ∈ completion.candidates ∧
      besideTilde.files.isDirectory (besideTilde.resolve (completion.kept ++ "notes/")) := by
  intro completion
  have hkind : completion.kind = .path := by decide +kernel
  have hcandidate : "notes/" ∈ completion.candidates := by decide +kernel
  obtain ⟨_, _, _, _, _, -, -, -, -, -, hleads⟩ :=
    resolve_completed_iff addressable_besideTilde hkind hcandidate
  have hway : completion.kept ≠ "" := by decide +kernel
  obtain ⟨-, hdirectory⟩ := hleads.mpr fun hnone => absurd hnone hway
  exact ⟨addressable_besideTilde, hkind, hcandidate, hdirectory.mpr (by decide)⟩

/-- A file called `~` is offered, but its name leads to the home directory. -/
theorem resolve_completed_ne_of_tilde :
    let completion := besideTilde.completion "cat ~"
    besideTilde.files.root.Addressable ∧ completion.kind = .path ∧
      completion.candidates = ["~"] ∧ completion.kept = "" ∧
      besideTilde.files.read "/~" = .ok "hi" ∧
      besideTilde.resolve (completion.kept ++ "~") = "/home" ∧
      besideTilde.files.isDirectory "/home" :=
  ⟨addressable_besideTilde, by decide +kernel⟩

end Session

end PocketShell
