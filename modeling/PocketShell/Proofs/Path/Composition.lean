import PocketShell.Proofs.Path.Home
import PocketShell.Tree.FileSystem

/-!
# Paths after one another

Where a path leads depends on its components only, and a path that is put after another one is
followed from where that one leads (`Path.components_append`). So a path may be normalized, or
resolved, before another one is put after it, and the functions that are built on its components
agree with one another. `Path.Clean` says how a normal path is written. Main statement:
`Path.normalize_compatible`.
-/

namespace PocketShell.Path

variable {path rest : String}

/-- A path may be normalized before another one is put after it. -/
theorem normalize_append (path rest : String) :
    normalize (normalize path ++ "/" ++ rest) = normalize (path ++ "/" ++ rest) := by
  rw [normalize, components_append, components_normalize, ← components_append, ← normalize]

/-- A path that does not begin at the root may be put after another one, or be resolved where that
one leads. -/
theorem resolve_resolve (hpath : path ≠ "") (hrest : ¬ Text.beginsWith "/" rest) (base : String) :
    resolve (resolve base path) rest = resolve base (path ++ "/" ++ rest) := by
  rw [resolve_eq_resolve_iff, components_resolve_append, resolve_append_slash hpath,
    components_resolve_eq, if_neg hrest]

/-- A dot stays where the path is, which comes out in normal form. -/
theorem resolve_dot (path : String) : resolve path "." = normalize path := by
  have hdot : Text.pieces '/' "." = ["."] := rfl
  have hstay : follow (components path) "." = components path := rfl
  rw [resolve_of_not_beginsWith (by decide), normalize, components_append, hdot, List.foldl_cons,
    List.foldl_nil, hstay, ← normalize]

/-- The directory that holds a place is reached by one step back from it. -/
theorem parent_eq_resolve (path : String) : parent path = resolve path ".." := by
  have hup : Text.pieces '/' ".." = [".."] := rfl
  rw [resolve_of_not_beginsWith (by decide), normalize, components_append, hup, List.foldl_cons,
    List.foldl_nil, follow, if_pos rfl, parent]

/-- A path is that of the root exactly if nothing of it is left to follow. -/
theorem normalize_eq_root_iff : normalize path = "/" ↔ components path = [] := by
  have hroot : ofComponents [] = "/" := rfl
  rw [← hroot, normalize, ofComponents_inj (fun _ => isComponent_of_mem_components) (by simp)]

/-- The root is its own parent, and nothing else is. -/
theorem parent_eq_normalize_iff : parent path = normalize path ↔ normalize path = "/" := by
  have hnames : ∀ name ∈ components path, IsComponent name :=
    fun _ => isComponent_of_mem_components
  have hparent : ∀ name ∈ (components path).dropLast, IsComponent name :=
    fun name hname => hnames name (List.dropLast_subset _ hname)
  rw [normalize_eq_root_iff, parent, normalize, ofComponents_inj hparent hnames]
  constructor
  · intro h
    have hlength := congrArg List.length h
    rw [List.length_dropLast] at hlength
    exact List.length_eq_zero_iff.mp (by omega)
  · intro h
    rw [h, List.dropLast_nil]

/-! ## How normal paths are written -/

/-- The path is the root, or it begins with a slash and nothing between its slashes, or after the
last of them, is empty, `.` or `..`. -/
def Clean (path : String) : Prop :=
  path = "/" ∨ ∃ rest, path = "/" ++ rest ∧
    ∀ piece ∈ rest.toList.splitOn '/', piece ≠ [] ∧ piece ≠ ['.'] ∧ piece ≠ ['.', '.']

/-- Nothing that a text is split into at its slashes holds one. -/
theorem forall_isComponent_pieces_iff {rest : String} :
    (∀ piece ∈ Text.pieces '/' rest, IsComponent piece) ↔
      ∀ piece ∈ rest.toList.splitOn '/', piece ≠ [] ∧ piece ≠ ['.'] ∧ piece ≠ ['.', '.'] := by
  rw [Text.pieces, List.forall_mem_map]
  refine forall₂_congr fun piece hpiece => ?_
  have hslash : '/' ∉ piece := by
    rw [List.splitOn_eq_splitOnP] at hpiece
    exact fun hmark => by simpa using Text.forall_of_mem_splitOnP hpiece '/' hmark
  simp [IsComponent, ← String.toList_inj, hslash]

/-- The normal paths are those that are written so. -/
theorem isNormal_iff_clean : IsNormal path ↔ Clean path := by
  constructor
  · intro h
    by_cases hroot : path = "/"
    · exact .inl hroot
    · obtain ⟨names, -, hpath⟩ := isNormal_iff.mp h
      have hrest : "/".intercalate names ≠ "" := by
        intro hempty
        exact hroot (by rw [hpath, ofComponents, hempty]; rfl)
      rw [hpath, ofComponents, isNormal_append_iff hrest] at h
      exact .inr ⟨_, hpath, forall_isComponent_pieces_iff.mp h⟩
  · rintro (rfl | ⟨rest, rfl, hpieces⟩)
    · decide +kernel
    · refine (isNormal_append_iff ?_).mpr (forall_isComponent_pieces_iff.mpr hpieces)
      rintro rfl
      exact (hpieces [] (by decide)).1 rfl

/-- To resolve `.` leaves a path as it is exactly if the path is written in normal form. -/
theorem resolve_dot_eq_self_iff : resolve path "." = path ↔ Clean path := by
  rw [resolve_dot, ← isNormal_iff_clean, IsNormal]

/-- Every spelling of a path finds the same. -/
theorem lookup?_normalize (files : FileSystem) (path : String) :
    files.lookup? (normalize path) = files.lookup? path := by
  rw [FileSystem.lookup?, components_normalize, FileSystem.lookup?]

/-- **Normal paths, and paths after one another.** What is normalized is the root, or begins with a
slash and has nothing that is empty, `.` or `..` between its slashes. Normalizing it again makes no
difference, and neither does normalizing a path before another one is put after it; so two paths may
be resolved one after the other or at once. To resolve `.` leaves the paths that are written so as
they are, and no others; these are the ones that are their own normal form. The parent is reached by
`..`, and only the root is its own. In every tree a path finds what its normal form finds. -/
theorem normalize_compatible (path rest : String) :
    Clean (normalize path) ∧
      normalize (normalize path) = normalize path ∧
      normalize (normalize path ++ "/" ++ rest) = normalize (path ++ "/" ++ rest) ∧
      (path ≠ "" → ¬ Text.beginsWith "/" rest → ∀ base,
        resolve (resolve base path) rest = resolve base (path ++ "/" ++ rest)) ∧
      (resolve path "." = path ↔ Clean path) ∧ (normalize path = path ↔ Clean path) ∧
      (parent path = resolve path ".." ∧ (parent path = normalize path ↔ normalize path = "/")) ∧
      ∀ files : FileSystem, files.lookup? path = files.lookup? (normalize path) := by
  have hclean : Clean (normalize path) := isNormal_iff_clean.mp (isNormal_normalize path)
  exact ⟨hclean, normalize_normalize path, normalize_append path rest, resolve_resolve,
    resolve_dot_eq_self_iff, isNormal_iff_clean, ⟨parent_eq_resolve path, parent_eq_normalize_iff⟩,
    fun files => (lookup?_normalize files path).symm⟩

/-- Two steps back from a directory that is reached by a detour, and the ways there. -/
theorem normalize_compatible_of_detour :
    "x/.//y/" ≠ "" ∧ ¬ Text.beginsWith "/" "../../z" ∧
      resolve "/tmp" "x/.//y/" = "/tmp/x/y" ∧ Clean "/tmp/x/y" ∧
      resolve (resolve "/tmp" "x/.//y/") "../../z" = "/tmp/z" ∧
      resolve "/tmp" "x/.//y//../../z" = "/tmp/z" := by
  obtain ⟨-, -, -, hresolve, -⟩ := normalize_compatible "x/.//y/" "../../z"
  obtain ⟨-, -, -, -, -, hnormal, -⟩ := normalize_compatible "/tmp/x/y" ""
  have hrelative : ¬ Text.beginsWith "/" "../../z" := by decide
  have hway : resolve "/tmp" "x/.//y/" = "/tmp/x/y" := by decide +kernel
  have hatOnce : resolve "/tmp" "x/.//y//../../z" = "/tmp/z" := by decide +kernel
  have hclean : Clean "/tmp/x/y" := hnormal.mp (by decide +kernel)
  refine ⟨by decide, hrelative, hway, hclean, ?_, hatOnce⟩
  exact (hresolve (by decide) hrelative "/tmp").trans hatOnce

end PocketShell.Path
